import TsBat3.Stream.Frame
import Mathlib.Logic.Function.Basic

/-! # Reading a frame from the serial line

`readStream` unescapes a frame in place in the caller's buffer. The model keeps
the memory at the buffer, the byte before it included, because the escape test
looks one byte behind the write position even when that is 0.
-/

namespace TsBat3

/-- `state_t` -/
inductive StreamState
  | notStarted
  | started
  | ended
deriving DecidableEq, Repr

/-- The memory at a buffer, by index. -/
abbrev Memory := Int → Byte

/-- The first `len` bytes of a buffer. -/
def Memory.bytes (msg : Memory) (len : Nat) : List Byte :=
  (List.range len).map fun index : Nat => msg index

theorem Memory.length_bytes (msg : Memory) (len : Nat) : (msg.bytes len).length = len := by
  simp only [Memory.bytes, List.length_map, List.length_range]

theorem Memory.bytes_succ (msg : Memory) (len : Nat) :
    msg.bytes (len + 1) = msg.bytes len ++ [msg len] := by
  simp only [Memory.bytes, List.range_succ, List.map_append, List.map_cons, List.map_nil]

/-- Writing behind the first `len` bytes of a buffer, or before them, leaves them
as they were. -/
theorem Memory.bytes_update (msg : Memory) (len : Nat) (index : Int) (byte : Byte)
    (outside : index < 0 ∨ len ≤ index) :
    Memory.bytes (Function.update msg index byte) len = msg.bytes len := by
  unfold Memory.bytes
  apply List.map_congr_left
  intro place member
  have small := List.mem_range.mp member
  rw [Function.update_of_ne (by omega)]

/-- Writing behind the first `len` bytes of a buffer adds a byte to them. -/
theorem Memory.bytes_push (msg : Memory) (len : Nat) (byte : Byte) :
    Memory.bytes (Function.update msg (len : Int) byte) (len + 1) = msg.bytes len ++ [byte] := by
  rw [bytes_succ, bytes_update _ _ _ _ (Or.inr (le_refl _)), Function.update_self]

theorem Memory.front_update (msg : Memory) (pos : Nat) (byte : Byte) :
    Function.update msg (pos : Int) byte (-1) = msg (-1) := by
  have apart : (-1 : Int) ≠ pos := by omega
  rw [Function.update_of_ne apart]

/-- What one turn of the loop meets on the line: `select` reports data and `read`
stores a byte; `select` reports data and `read` stores nothing; `select` times
out. The vendor's reader has a `FILE *` between the two, so that there a timeout can
also come while bytes wait in its buffer. -/
inductive Poll
  | byte (received : Byte)
  | eof
  | silent
deriving DecidableEq, Repr

/-- The locals of `readStream` and its buffer. -/
structure Decoder where
  rxchar : Byte
  state : StreamState
  pos : Nat
  lastesc : Int
  msg : Memory

/-- The `switch` on a received character. -/
def Decoder.receive (decoder : Decoder) : Decoder :=
  if decoder.rxchar = STX then { decoder with state := .started, pos := 0 }
  else if decoder.rxchar = ETX then
    if decoder.state = .started then
      -- an unescaped ETX in the checksum's place of an 18-byte message is the checksum
      if decoder.pos = 18 then
        { decoder with
          msg := Function.update decoder.msg decoder.pos decoder.rxchar
          pos := decoder.pos + 1 }
      else { decoder with state := .ended }
    else decoder
  else if decoder.state = .started then
    if decoder.msg (decoder.pos - 1) = ESC ∧ decoder.lastesc ≠ decoder.pos then
      { decoder with
        lastesc := decoder.pos
        msg := Function.update decoder.msg (decoder.pos - 1) (decoder.rxchar ^^^ escBit) }
    else
      { decoder with
        msg := Function.update decoder.msg decoder.pos decoder.rxchar
        pos := decoder.pos + 1 }
  else decoder

/-- `read(fd, &rxchar, 1)`, whose return value is ignored. -/
def Decoder.read (decoder : Decoder) : Poll → Decoder
  | .byte received => { decoder with rxchar := received }
  | _ => decoder

/-- The loop over the line. A line that ends has gone silent for good. -/
def readLoop (max : Nat) : List Poll → Decoder → Decoder × List Poll
  | [], decoder => (decoder, [])
  | .silent :: line, decoder => (decoder, line)
  | poll :: line, decoder =>
      if decoder.state = .ended then (decoder, poll :: line)
      else
        let decoder := (decoder.read poll).receive
        if decoder.pos = max then (decoder, line) else readLoop max line decoder

/-- The return value of `readStream`, the buffer, and the rest of the line. -/
structure ReadResult where
  ret : Nat
  msg : Memory
  line : List Poll

/-- The message that was returned. -/
def ReadResult.message (result : ReadResult) : List Byte := result.msg.bytes result.ret

/-- The decoder at the start of a call. -/
def Decoder.start (rxchar : Byte) (msg : Memory) : Decoder :=
  { rxchar, state := .notStarted, pos := 0, lastesc := -1, msg }

/-- The length that a call returns for what has been decoded. -/
def Decoder.ret (decoder : Decoder) : Nat :=
  if 0 < decoder.pos then
    if calcCrc (decoder.msg.bytes (decoder.pos - 1)) ≠ decoder.msg (decoder.pos - 1) then 0
    else decoder.pos - 1
  else 0

/-- The message that a call returns for what has been decoded. -/
def Decoder.message (decoder : Decoder) : List Byte := decoder.msg.bytes decoder.ret

/-- `readStream` on a line, with what its uninitialised `rxchar` and its buffer
hold at the start. -/
def readStream (line : List Poll) (rxchar : Byte) (msg : Memory) (max : Nat) : ReadResult :=
  let (decoder, line) := readLoop max line (.start rxchar msg)
  { ret := decoder.ret, msg := decoder.msg, line }

theorem Decoder.ret_le (decoder : Decoder) : decoder.ret ≤ decoder.pos := by
  unfold ret
  split
  · split
    · exact Nat.zero_le _
    · exact Nat.sub_le _ _
  · exact Nat.zero_le _

theorem message_readLoop (line : List Poll) (rxchar : Byte) (msg : Memory) (max : Nat) :
    (readStream line rxchar msg max).message =
      (readLoop max line (.start rxchar msg)).1.message := rfl

/-- A turn of the loop in which something is received. -/
theorem readLoop_turn {max : Nat} {poll : Poll} (heard : poll ≠ .silent) (line : List Poll)
    {decoder : Decoder} (running : decoder.state ≠ .ended) :
    readLoop max (poll :: line) decoder =
      if (decoder.read poll).receive.pos = max then ((decoder.read poll).receive, line)
      else readLoop max line (decoder.read poll).receive := by
  cases poll with
  | silent => exact absurd rfl heard
  | byte received => exact if_neg running
  | eof => exact if_neg running

end TsBat3

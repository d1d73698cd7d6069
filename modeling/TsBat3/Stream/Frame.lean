import TsBat3.Core.State
import TsBat3.Foundation.Framing

/-! # Frames on the serial line

What `writeStream` sends for a message: the message and its checksum with the
reserved bytes escaped, between `STX` and `ETX`.
-/

namespace TsBat3

def ESC : Byte := 0x7D

def STX : Byte := 0x7E

def ETX : Byte := 0x7F

/-- `1<<5`, the bit that tells an escaped byte from what is sent for it -/
def escBit : Byte := 1 <<< 5

/-- The checksum of a message: 0xFF less its bytes, modulo 256. -/
def calcCrc (msg : List Byte) : Byte := msg.foldl (fun crc byte => crc - byte) 0xFF

/-- The test that decides whether `writeStream` escapes a byte. -/
def escapes (byte : Byte) : Bool :=
  byte == 0x7E || byte == 0x7D || byte == 0x7F || byte == 0x11 || byte == 0x13

/-- The bytes `writeStream` hands to `write`. -/
def writeStream (msg : List Byte) : List Byte :=
  let mymsg := [STX]
  let mymsg := msg.foldl (fun mymsg byte =>
    if escapes byte then mymsg ++ [ESC, byte ^^^ escBit] else mymsg ++ [byte]) mymsg
  let crc := calcCrc msg
  let mymsg := if escapes crc then mymsg ++ [ESC, crc ^^^ escBit] else mymsg ++ [crc]
  mymsg ++ [ETX]

/-- The escaping of the serial line as a stuffing code. -/
def lineCode : Stuffing Byte where
  esc := ESC
  flip byte := byte ^^^ escBit
  reserved := escapes
  reserved_esc := by decide
  flip_flip byte := by rw [BitVec.xor_assoc, BitVec.xor_self, BitVec.xor_zero]
  plain_flip := by decide

@[simp] theorem lineCode_esc : lineCode.esc = ESC := rfl

@[simp] theorem lineCode_reserved : lineCode.reserved = escapes := rfl

/-- The bytes between the delimiters of a message's frame. -/
def frameBody (msg : List Byte) : List Byte := lineCode.stuff (msg ++ [calcCrc msg])

theorem stuff_loop (msg mymsg : List Byte) :
    msg.foldl (fun mymsg byte =>
      if escapes byte then mymsg ++ [ESC, byte ^^^ escBit] else mymsg ++ [byte]) mymsg =
      mymsg ++ lineCode.stuff msg := by
  induction msg generalizing mymsg with
  | nil => exact (List.append_nil mymsg).symm
  | cons byte msg ih =>
      rw [List.foldl_cons, ih, Stuffing.stuff_cons, ← List.append_assoc]
      congr 1
      unfold Stuffing.stuffSymbol
      rw [lineCode_reserved]
      split <;> rfl

/-- The payload loop and the separate checksum branch of `writeStream` stuff the
message with its checksum. -/
theorem writeStream_eq (msg : List Byte) :
    writeStream msg = STX :: (frameBody msg ++ [ETX]) := by
  have crc : (if escapes (calcCrc msg) then
        [STX] ++ lineCode.stuff msg ++ [ESC, calcCrc msg ^^^ escBit]
      else [STX] ++ lineCode.stuff msg ++ [calcCrc msg]) =
      [STX] ++ (lineCode.stuff msg ++ lineCode.stuff [calcCrc msg]) := by
    rw [Stuffing.stuff_cons, Stuffing.stuff_nil, List.append_nil]
    unfold Stuffing.stuffSymbol
    rw [lineCode_reserved]
    split
    · rw [List.append_assoc]
      rfl
    · rw [List.append_assoc]
  unfold writeStream frameBody
  dsimp only
  rw [stuff_loop, crc, Stuffing.stuff_append]
  rfl

/-- A message is accepted with a checksum exactly when both sum to 0xFF. -/
theorem calcCrc_eq_iff (msg : List Byte) (crc : Byte) :
    calcCrc msg = crc ↔ (msg ++ [crc]).sum = 0xFF := complement_eq_iff 0xFF msg crc

theorem sum_sealed (msg : List Byte) : (msg ++ [calcCrc msg]).sum = 0xFF :=
  (calcCrc_eq_iff msg _).mp rfl

/-- Neither delimiter occurs in a frame's body. -/
theorem delimiter_not_mem_stuff {delimiter : Byte} (reserved : escapes delimiter = true)
    (other : delimiter ≠ ESC) (msg : List Byte) : delimiter ∉ lineCode.stuff msg := by
  intro member
  have plain := lineCode.plain_of_mem_stuff member other
  rw [lineCode_reserved, reserved] at plain
  exact Bool.noConfusion plain

theorem STX_not_mem_stuff (msg : List Byte) : STX ∉ lineCode.stuff msg :=
  delimiter_not_mem_stuff (by decide) (by decide) msg

theorem ETX_not_mem_stuff (msg : List Byte) : ETX ∉ lineCode.stuff msg :=
  delimiter_not_mem_stuff (by decide) (by decide) msg

end TsBat3

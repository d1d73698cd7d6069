import TsBat3.Vendor.Packet

/-! # The vendor's packet writer

`AVRsendRequest` puts the checksum into the last byte of a request and sends the whole
of it in a frame, again when the device does not answer as it should. What it sends
are the bytes that `writeStream` sends for the request without its checksum.
-/

namespace TsBat3

def serialEscape (b : Byte) : Bool :=
  b == 0x7E || b == 0x7D || b == 0x7F || b == 0x11 || b == 0x13

def serialFrameOverhead (pkt : ByteArrayRef) : Int :=
  pkt.bytes.foldl (fun off byte => if serialEscape byte then off + 1 else off) 2

/-- A buffer and the place `j` at which it is written next. -/
structure Writer where
  j : Nat
  arr : Memory

/-- `arr[j++] = b` -/
def Writer.put (writer : Writer) (b : Byte) : Writer :=
  { j := writer.j + 1, arr := Function.update writer.arr writer.j b }

/-- The loop of `serialFrame` for a byte of the packet. -/
def Writer.escape (writer : Writer) (byte : Byte) : Writer :=
  let (writer, b) :=
    if serialEscape byte then (writer.put 0x7D, byte ^^^ 0x20) else (writer, byte)
  writer.put b

def serialFrame (src dst : ByteArrayRef) : Writer :=
  let writer : Writer := { j := 0, arr := dst.arr }
  let writer := writer.put 0x7E
  let writer := src.bytes.foldl Writer.escape writer
  writer.put 0x7F

/-- The bytes that `serialFramedSend` hands to `write`, with what its uninitialised buffer
holds at the start. -/
def serialFramedSend (buffer : Memory) (src : ByteArrayRef) : List Byte :=
  let len := src.len + serialFrameOverhead src
  ByteArrayRef.bytes { len, arr := (serialFrame src { len, arr := buffer }).arr }

/-- The request with its checksum in the last byte. -/
def patchChecksum (req : ByteArrayRef) : ByteArrayRef :=
  let req := { req with arr := Function.update req.arr (req.len - 1) 0 }
  let checksum := BitVec.ofInt 8 (0xFF - ByteArrayRef_Checksum req)
  { req with arr := Function.update req.arr (req.len - 1) checksum }

/-- What comes of requests: the frames sent, what is returned unless the program exits, and the
rest of the line. -/
structure Exchange (α : Type) where
  sent : List (List Byte)
  reply : Option α
  line : List Poll

/-- Another frame is sent before. -/
def Exchange.sending {α : Type} (frame : List Byte) (done : Exchange α) : Exchange α :=
  { done with sent := frame :: done.sent }

/-- The loop of `AVRsendRequest`, with the retries that are left. -/
def sendLoop (callback : ByteArrayRef → ByteArrayRef → Int) (buffer : Memory)
    (req : ByteArrayRef) : Nat → Int → List Poll → ByteArrayRef → Exchange ByteArrayRef
  | 0, _, line, _ => ⟨[], none, line⟩
  | retries + 1, repliesTillRetry, line, ret =>
      match filePacketGet line ret with
      | (none, line) => ⟨[], none, line⟩
      | (some b, line) =>
          let ret := { ret with arr := b.arr }
          let retry := if b.len = 0 then 1 else callback req ret
          if retry = 0 then ⟨[], some b, line⟩
          else if repliesTillRetry - 1 = 0 then
            (sendLoop callback buffer req retries 2 line ret).sending (serialFramedSend buffer req)
          else sendLoop callback buffer req retries (repliesTillRetry - 1) line ret

def AVRsendRequest (callback : ByteArrayRef → ByteArrayRef → Int) (buffer : Memory)
    (line : List Poll) (req ret : ByteArrayRef) : Exchange ByteArrayRef :=
  let req := patchChecksum req
  (sendLoop callback buffer req 5 2 line ret).sending (serialFramedSend buffer req)

/-- The two programs escape the same bytes. -/
theorem serialEscape_eq : serialEscape = escapes := rfl

/-- The bytes written so far. -/
def Writer.written (writer : Writer) : List Byte := writer.arr.bytes writer.j

theorem Writer.written_put (writer : Writer) (b : Byte) :
    (writer.put b).written = writer.written ++ [b] :=
  Memory.bytes_push writer.arr writer.j b

theorem Writer.written_escape (writer : Writer) (byte : Byte) :
    (writer.escape byte).written =
      if escapes byte then writer.written ++ [ESC, byte ^^^ escBit]
      else writer.written ++ [byte] := by
  unfold escape
  rw [serialEscape_eq]
  by_cases escaped : escapes byte = true
  · rw [if_pos escaped, if_pos escaped]
    dsimp only
    rw [written_put, written_put, List.append_assoc]
    rfl
  · rw [if_neg escaped, if_neg escaped]
    exact written_put writer byte

/-- The frame that is written is the stuffed packet between the delimiters. -/
theorem written_serialFrame (src dst : ByteArrayRef) :
    (serialFrame src dst).written = STX :: (lineCode.stuff src.bytes ++ [ETX]) := by
  have stuffed : src.bytes.foldl (fun mymsg byte =>
        if escapes byte then mymsg ++ [ESC, byte ^^^ escBit] else mymsg ++ [byte])
        (Writer.put { j := 0, arr := dst.arr } 0x7E).written =
      (src.bytes.foldl Writer.escape (Writer.put { j := 0, arr := dst.arr } 0x7E)).written :=
    List.foldl_hom Writer.written fun writer byte => (Writer.written_escape writer byte).symm
  rw [stuff_loop, Writer.written_put] at stuffed
  unfold serialFrame
  dsimp only
  rw [Writer.written_put, ← stuffed]
  rfl

/-- The place behind the last byte counts what is written. -/
theorem Writer.length_written (writer : Writer) : writer.written.length = writer.j :=
  Memory.length_bytes writer.arr writer.j

private theorem overhead_loop (bytes : List Byte) (off : Int) :
    bytes.foldl (fun off byte => if serialEscape byte then off + 1 else off) off =
      off + bytes.countP escapes := by
  induction bytes generalizing off with
  | nil => exact (add_zero off).symm
  | cons byte bytes ih =>
      rw [List.foldl_cons, ih, List.countP_cons, serialEscape_eq]
      split <;> omega

/-- The buffer that `serialFramedSend` takes is as long as the frame. -/
theorem length_frame {src : ByteArrayRef} (sized : 0 ≤ src.len) :
    ((STX :: (lineCode.stuff src.bytes ++ [ETX])).length : Int) =
      src.len + serialFrameOverhead src := by
  have count : src.bytes.length = src.len.toNat := Memory.length_bytes src.arr src.len.toNat
  rw [List.length_cons, List.length_append, List.length_singleton, Stuffing.length_stuff,
    lineCode_reserved, count, serialFrameOverhead, overhead_loop]
  omega

/-- **What is sent for a packet** is the stuffed packet between the delimiters, whatever
the buffer held. -/
theorem serialFramedSend_eq (buffer : Memory) {src : ByteArrayRef} (sized : 0 ≤ src.len) :
    serialFramedSend buffer src = STX :: (lineCode.stuff src.bytes ++ [ETX]) := by
  have frame := written_serialFrame src { len := src.len + serialFrameOverhead src, arr := buffer }
  have filled := Writer.length_written
    (serialFrame src { len := src.len + serialFrameOverhead src, arr := buffer })
  rw [frame] at filled
  rw [← frame]
  unfold serialFramedSend ByteArrayRef.bytes
  dsimp only
  rw [← length_frame sized, filled]
  rfl

/-- The sealed request is the request with the checksum that `writeStream` computes. -/
theorem bytes_patchChecksum {req : ByteArrayRef} {p : List Byte} (sized : req.len = p.length + 1)
    (payload : req.arr.bytes p.length = p) :
    (patchChecksum req).bytes = p ++ [calcCrc p] := by
  have last : req.len - 1 = p.length := by omega
  have whole : req.len.toNat = p.length + 1 := by omega
  have filled (arr : Memory) (b : Byte) (same : arr.bytes p.length = p) :
      ByteArrayRef.bytes { req with arr := Function.update arr (req.len - 1) b } = p ++ [b] := by
    unfold ByteArrayRef.bytes
    dsimp only
    rw [last, whole, Memory.bytes_push, same]
  have zeroed : Memory.bytes (Function.update req.arr (req.len - 1) 0) p.length = p := by
    rw [last, Memory.bytes_update _ _ _ _ (Or.inr (le_refl _)), payload]
  have checksum : BitVec.ofInt 8 (0xFF - ByteArrayRef_Checksum
      { req with arr := Function.update req.arr (req.len - 1) 0 }) = calcCrc p := by
    have total : calcCrc p = 0xFF - p.sum := complement_eq_sub_sum 0xFF p
    rw [Int.sub_eq_add_neg, BitVec.ofInt_add, BitVec.ofInt_neg, ofInt_checksum,
      filled _ _ payload, List.sum_append, total, List.sum_singleton, add_zero, sub_eq_add_neg]
    rfl
  unfold patchChecksum
  dsimp only
  rw [checksum]
  exact filled _ _ zeroed

private theorem toNat_sum (msg : List Byte) : msg.sum.toNat = (msg.map BitVec.toNat).sum % 256 := by
  induction msg with
  | nil => rfl
  | cons byte msg ih => rw [List.sum_cons, List.map_cons, List.sum_cons, BitVec.toNat_add, ih,
      Nat.add_mod_mod]

/-- The checksum as a number. -/
theorem calcCrc_eq_ofNat (msg : List Byte) :
    calcCrc msg = BitVec.ofNat 8 (0xFF - (msg.map BitVec.toNat).sum % 256) := by
  have total : calcCrc msg = 0xFF - msg.sum := complement_eq_sub_sum 0xFF msg
  have value := toNat_sum msg
  apply BitVec.eq_of_toNat_eq
  rw [total, BitVec.toNat_sub, value, BitVec.toNat_ofNat]
  change (2 ^ 8 - _ + 255) % 2 ^ 8 = _
  omega

/-- Every frame that is sent is the frame of the sealed request. -/
theorem sent_sendLoop {callback : ByteArrayRef → ByteArrayRef → Int} {buffer : Memory}
    {req : ByteArrayRef} (retries : Nat) (repliesTillRetry : Int) (line : List Poll)
    (ret : ByteArrayRef) :
    ∀ frame ∈ (sendLoop callback buffer req retries repliesTillRetry line ret).sent,
      frame = serialFramedSend buffer req := by
  induction retries generalizing repliesTillRetry line ret with
  | zero => exact fun frame member => absurd member List.not_mem_nil
  | succ retries ih =>
      intro frame member
      unfold sendLoop at member
      split at member
      · exact absurd member List.not_mem_nil
      rename_i b line _
      dsimp only at member
      generalize (if b.len = 0 then 1 else callback req { ret with arr := b.arr }) = retry at member
      split at member
      · exact absurd member List.not_mem_nil
      split at member
      · rcases List.mem_cons.mp member with same | later
        · exact same
        · exact ih _ _ _ frame later
      · exact ih _ _ _ frame member

/-- **The two writers agree.** For a request of at most 23 bytes and a place for the
checksum, `AVRsendRequest` sends the bytes that `writeStream` sends for the request,
however often it sends them; they fit the buffer of `writeStream`, and their number is
what `serialFrameOverhead` says. -/
theorem AVRsendRequest_eq {p : List Byte} (short : p.length ≤ 23) {req : ByteArrayRef}
    (sized : req.len = p.length + 1) (payload : req.arr.bytes p.length = p)
    (callback : ByteArrayRef → ByteArrayRef → Int) (buffer : Memory) (line : List Poll)
    (ret : ByteArrayRef) :
    let frames := (AVRsendRequest callback buffer line req ret).sent
    let pkt := patchChecksum req
    pkt.bytes = p ++ [BitVec.ofNat 8 (0xFF - (p.map BitVec.toNat).sum % 256)] ∧
      frames ≠ [] ∧ (∀ frame ∈ frames, frame = writeStream p) ∧
      ((writeStream p).length : Int) = p.length + 1 + serialFrameOverhead pkt ∧
      (writeStream p).length ≤ 50 := by
  intro frames pkt
  have sealed : pkt.bytes = p ++ [calcCrc p] := bytes_patchChecksum sized payload
  have room : 0 ≤ pkt.len := by
    change 0 ≤ req.len
    omega
  have frame : STX :: (lineCode.stuff pkt.bytes ++ [ETX]) = writeStream p := by
    rw [sealed, writeStream_eq, frameBody]
  have sent : serialFramedSend buffer pkt = writeStream p :=
    (serialFramedSend_eq buffer room).trans frame
  refine ⟨by rw [sealed, calcCrc_eq_ofNat], List.cons_ne_nil _ _, ?_, ?_, ?_⟩
  · intro other member
    rcases List.mem_cons.mp member with same | later
    · exact same.trans sent
    · exact (sent_sendLoop 5 2 line ret other later).trans sent
  · rw [← frame, length_frame room, ← sized]
    rfl
  · have body := lineCode.length_stuff_le (p ++ [calcCrc p])
    rw [List.length_append, List.length_singleton] at body
    rw [writeStream_eq, frameBody, List.length_cons, List.length_append, List.length_singleton]
    omega

/-- A request whose checksum is a reserved byte, sent three times to a device that answers
with other settings. -/
theorem AVRsendRequest_reserved :
    let req : ByteArrayRef := ⟨3, fun index => if index = 0 then 0x11 else 0x71⟩
    let line := (List.replicate 5 (writeStream [0x7E])).flatten.map Poll.byte
    let frames := (AVRsendRequest (fun _ _ => 1) (fun _ => 0) line req ⟨256, fun _ => 0⟩).sent
    let pkt := patchChecksum req
    pkt.bytes = [0x11, 0x71] ++ [BitVec.ofNat 8 (0xFF - ([0x11, 0x71] : List Nat).sum % 256)] ∧
      frames ≠ [] ∧ (∀ frame ∈ frames, frame = writeStream [0x11, 0x71]) ∧
      ((writeStream [0x11, 0x71]).length : Int) = 2 + 1 + serialFrameOverhead pkt ∧
      (writeStream [0x11, 0x71]).length ≤ 50 :=
  AVRsendRequest_eq (by decide) rfl (by decide) _ _ _ _

end TsBat3

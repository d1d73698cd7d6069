import TsBat3.Stream.Frame

/-! # What `writeStream` sends is well formed

A frame has its delimiters at its ends and nowhere else, no byte in it is taken for flow
control, and its escape symbols stand for themselves nowhere: each opens one pair. What its
body stands for is the message with one byte more that completes the sum to 0xFF.
-/

namespace TsBat3

/-- `char mymsg[50]` -/
def FRAME_SIZE : Nat := 50

/-- Every escape symbol of a body comes behind whole units, is followed by the second half of a
pair, and opens a pair at its place; and there are no more pairs than escape symbols. -/
structure Paired (body : List Byte) : Prop where
  opens : ∀ before after, body = before ++ ESC :: after →
    ∃ read second rest, lineCode.unstuff before = some read ∧ after = second :: rest ∧
      second ∈ [0x5D, 0x5E, 0x5F, 0x31, 0x33] ∧ read.length ∈ lineCode.pairs 0 body
  once : (lineCode.pairs 0 body).length = body.count ESC

/-- A body of a frame of the message. -/
structure SoundBody (msg body : List Byte) : Prop where
  transparent : ∀ byte ∈ body, byte ∉ [STX, ETX, 0x11, 0x13]
  paired : Paired body
  complete : ∃ check, lineCode.unstuff body = some (msg ++ [check]) ∧ (msg ++ [check]).sum = 0xFF

/-- A frame of the message. -/
structure SoundFrame (msg frame : List Byte) : Prop where
  length_ge : msg.length + 3 ≤ frame.length
  length_le : frame.length ≤ 2 * msg.length + 4
  fits : frame.length ≤ FRAME_SIZE
  delimited : ∃ body, frame = STX :: (body ++ [ETX]) ∧ SoundBody msg body

/-- The second half of a pair is one of five bytes. -/
theorem flip_mem : ∀ byte : Byte, escapes byte = true →
    byte ^^^ escBit ∈ ([0x5D, 0x5E, 0x5F, 0x31, 0x33] : List Byte) := by
  decide

private theorem paired_stuff (message : List Byte) : Paired (lineCode.stuff message) where
  opens before after split := by
    obtain ⟨read, symbol, rest, -, reserved, rfl, rfl⟩ := lineCode.split_of_esc split
    have reads := lineCode.unstuff_stuff read
    refine ⟨read, _, _, reads, rfl, flip_mem symbol reserved, ?_⟩
    rw [split, ← lineCode_esc, lineCode.pairs_append reads, Stuffing.pairs_pair, Nat.zero_add]
    exact List.mem_append_right _ List.mem_cons_self
  once := lineCode.length_pairs_stuff 0 message

/-- Of the reserved bytes only the escape symbol is sent. -/
theorem transparent_stuff (message : List Byte) :
    ∀ byte ∈ lineCode.stuff message, byte ∉ [STX, ETX, 0x11, 0x13] := by
  have apart : ∀ byte : Byte, byte ∈ [STX, ETX, 0x11, 0x13] →
      escapes byte = true ∧ byte ≠ ESC := by decide
  intro byte member reserved
  obtain ⟨escaped, other⟩ := apart byte reserved
  exact delimiter_not_mem_stuff escaped other message member

theorem soundBody_frameBody (msg : List Byte) : SoundBody msg (frameBody msg) where
  transparent := transparent_stuff _
  paired := paired_stuff _
  complete := ⟨calcCrc msg, lineCode.unstuff_stuff _, sum_sealed msg⟩

private theorem length_writeStream (msg : List Byte) :
    (writeStream msg).length =
      msg.length + 3 + (msg ++ [calcCrc msg]).countP escapes := by
  rw [writeStream_eq, List.length_cons, List.length_append, frameBody, Stuffing.length_stuff,
    List.length_append, List.length_singleton, List.length_singleton, lineCode_reserved]
  omega

/-- Different messages have different frames. -/
theorem writeStream_injective : Function.Injective writeStream := by
  intro first second same
  rw [writeStream_eq, writeStream_eq] at same
  have bodies := List.append_cancel_right (List.cons.inj same).2
  exact (List.append_inj' (lineCode.stuff_injective bodies) rfl).1

/-- **Well-formed frames.** What `writeStream` sends for a message of at most 23 bytes is a frame
of that message and of no other. -/
theorem writeStream_sound {msg : List Byte} (short : msg.length ≤ 23) :
    SoundFrame msg (writeStream msg) ∧
      ∀ other : List Byte, writeStream other = writeStream msg → other = msg := by
  have long := length_writeStream msg
  have some : (msg ++ [calcCrc msg]).countP escapes ≤ (msg ++ [calcCrc msg]).length :=
    List.countP_le_length
  rw [List.length_append, List.length_singleton] at some
  refine ⟨⟨by omega, by omega, ?_, frameBody msg, writeStream_eq msg, soundBody_frameBody msg⟩, ?_⟩
  · unfold FRAME_SIZE
    omega
  · exact fun other same => writeStream_injective same

/-- A message of reserved bytes alone. -/
theorem writeStream_sound_reserved :
    SoundFrame [ESC, STX, ETX, 0x11, 0x13] (writeStream [ESC, STX, ETX, 0x11, 0x13]) ∧
      ∀ other : List Byte, writeStream other = writeStream [ESC, STX, ETX, 0x11, 0x13] →
        other = [ESC, STX, ETX, 0x11, 0x13] :=
  writeStream_sound (by decide)

end TsBat3

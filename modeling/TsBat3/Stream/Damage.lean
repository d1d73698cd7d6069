import TsBat3.Stream.Receiver

/-! # Damaged frames

A frame in which one byte has been replaced has its escape pairs where the sound frame has them,
as long as neither the old nor the new byte is the escape symbol or a delimiter. Then exactly one
decoded byte differs, wherever the damage is, and the checksum fails
(`TsBat3.readStream_damaged`). Messages of 17 bytes are left out: with their checksum they fill
the place at which the decoder takes the terminator for a checksum.
-/

namespace TsBat3

/-- One byte between the delimiters of a frame has been replaced. -/
def Damages (frame damaged : List Byte) : Prop :=
  ∃ before old new after, frame = STX :: (before ++ old :: after ++ [ETX]) ∧
    damaged = STX :: (before ++ new :: after ++ [ETX]) ∧ old ≠ new ∧
    old ∉ [ESC, STX, ETX] ∧ new ∉ [ESC, STX, ETX]

/-- One other byte makes another sum. -/
theorem sum_replace_ne {left right : Byte} (apart : left ≠ right) (before after : List Byte) :
    (before ++ left :: after).sum ≠ (before ++ right :: after).sum := by
  rw [List.sum_append, List.sum_append, List.sum_cons, List.sum_cons]
  intro same
  exact apart (add_right_cancel (add_left_cancel same))

/-- A message is returned when its length is. -/
theorem ret_eq_zero_of_message {result : ReadResult} (nothing : result.message = []) :
    result.ret = 0 := by
  rw [← Memory.length_bytes result.msg result.ret]
  exact congrArg List.length nothing

namespace Receiver

/-- A byte that is no delimiter may stand in the place of any other. -/
theorem Undelimited.replace {before after : List Byte} {old new : Byte}
    (free : Undelimited (before ++ old :: after)) (stx : new ≠ STX) (etx : new ≠ ETX) :
    Undelimited (before ++ new :: after) := by
  have kept (delimiter : Byte) (absent : delimiter ∉ before ++ old :: after)
      (other : new ≠ delimiter) : delimiter ∉ before ++ new :: after := by
    intro member
    rcases List.mem_append.mp member with early | late
    · exact absent (List.mem_append_left _ early)
    · rcases List.mem_cons.mp late with same | later
      · exact other same.symm
      · exact absent (List.mem_append_right _ (List.mem_cons_of_mem _ later))
  exact ⟨kept STX free.1 stx, kept ETX free.2 etx⟩

/-- A body between delimiters that is neither too long nor 18 bytes long is accepted by its sum
alone. -/
theorem loop_body {front : Byte} (outer : front ≠ ESC) {body : List Byte} (free : Undelimited body)
    (short : body.length < 56) (other : (lineCode.scan body).length ≠ 18)
    (room : (lineCode.scan body).length ≠ 56) (rest : List Byte) :
    (loop 56 (STX :: (body ++ ETX :: rest)) (idle front)).1.accept =
      if (lineCode.scan body).sum = 0xFF then (lineCode.scan body).dropLast else [] := by
  have fed := feed_body body free (settled_start outer (-1)) fun place _ => by omega
  have fits : (inFrame front [] (-1)).cells.length + body.length < 56 := by
    rw [inFrame_cells, List.length_nil]
    omega
  have started := @loop_noise 56 [] List.not_mem_nil (body ++ ETX :: rest) front (by decide)
  rw [List.append_nil] at fed
  rw [List.nil_append] at started
  rw [started, loop_append _ _ inFrame_running free.2 fits, fed,
    loop_ETX rest (by rwa [List.length_reverse]) (by rwa [List.length_reverse]), accept_eq,
    List.sum_reverse, List.reverse_reverse]

end Receiver

/-- A damaged body is read as the sound one but for one byte. -/
theorem scan_damaged {msg : List Byte} {before after : List Byte} {old new : Byte}
    (body : frameBody msg = before ++ old :: after) (changed : old ≠ new) (oldPlain : old ≠ ESC)
    (newPlain : new ≠ ESC) :
    (lineCode.scan (before ++ new :: after)).length = msg.length + 1 ∧
      (lineCode.scan (before ++ new :: after)).sum ≠ 0xFF := by
  obtain ⟨read, left, right, rest, apart, sound, damaged⟩ :=
    lineCode.scan_replace oldPlain newPlain changed before after
  have whole : msg ++ [calcCrc msg] = read ++ left :: rest := by
    rw [← sound, ← body, frameBody, Stuffing.scan_stuff]
  constructor
  · have sized := congrArg List.length whole
    rw [damaged]
    simp only [List.length_append, List.length_cons, List.length_nil] at sized ⊢
    omega
  · rw [damaged, ← sum_sealed msg, whole]
    exact (sum_replace_ne apart read rest).symm

/-- **Damage is noticed.** When one byte of a frame has been replaced, `readStream` returns 0. -/
theorem readStream_damaged {msg damaged : List Byte} (short : msg.length ≤ 23)
    (other : msg.length ≠ 17) (damages : Damages (writeStream msg) damaged) (rest : List Byte)
    (rxchar : Byte) {buffer : Memory} (outer : buffer (-1) ≠ ESC) :
    (readStream ((damaged ++ rest).map .byte) rxchar buffer 56).ret = 0 := by
  obtain ⟨before, old, new, after, frame, rfl, changed, oldPlain, newPlain⟩ := damages
  simp only [List.mem_cons, List.not_mem_nil, or_false, not_or] at oldPlain newPlain
  have body : frameBody msg = before ++ old :: after := by
    rw [writeStream_eq] at frame
    exact List.append_cancel_right (List.cons.inj frame).2
  obtain ⟨length, sum⟩ := scan_damaged body changed oldPlain.1 newPlain.1
  have sized : (before ++ new :: after).length = (frameBody msg).length := by
    rw [body, List.length_append, List.length_append]
    rfl
  have bound := lineCode.length_stuff_le (msg ++ [calcCrc msg])
  rw [List.length_append, List.length_singleton] at bound
  have free : Receiver.Undelimited (before ++ new :: after) := by
    have sound := Receiver.undelimited_stuff (msg ++ [calcCrc msg])
    rw [← frameBody, body] at sound
    exact sound.replace newPlain.2.1 newPlain.2.2
  apply ret_eq_zero_of_message
  rw [(message_readStream _ rxchar buffer 56).1]
  have line : STX :: (before ++ new :: after ++ [ETX]) ++ rest =
      STX :: ((before ++ new :: after) ++ ETX :: rest) := by
    rw [List.cons_append, List.append_assoc]
    rfl
  rw [line, Receiver.loop_body outer free (by rw [sized]; unfold frameBody; omega) (by omega)
    (by omega), if_neg sum]

/-- An escape pair of the checksum, the second half of which has been damaged. -/
theorem readStream_damaged_pair :
    (readStream (([STX, 0x82, ESC, 0x5E, ETX] ++ []).map .byte) 0 (fun _ => 0) 56).ret = 0 :=
  @readStream_damaged [0x82] [STX, 0x82, ESC, 0x5E, ETX] (by decide) (by decide)
    ⟨[0x82, ESC], 0x5D, 0x5E, [], by decide, by decide, by decide, by decide, by decide⟩ [] 0 _
    (by decide)

end TsBat3

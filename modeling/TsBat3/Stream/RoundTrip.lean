import TsBat3.Stream.Receiver

/-! # Round trip over whole streams

Successive calls of `readStream` on a stream of frames with noise around them
return the payloads of the frames, one for each call, and each call leaves the
line right behind its frame.
-/

namespace TsBat3

/-- The frame of an 18-byte message whose checksum is `ETX`, as the device sends
it: the checksum is not escaped. -/
def deviceFrame (msg : List Byte) : List Byte := STX :: (lineCode.stuff msg ++ [ETX, ETX])

/-- A frame as `writeStream` or, for an 18-byte message with checksum `ETX`, the
device makes it. -/
def IsFrame (msg frame : List Byte) : Prop :=
  frame = writeStream msg ∨ msg.length = 18 ∧ calcCrc msg = ETX ∧ frame = deviceFrame msg

namespace Receiver

/-- **One frame.** Whatever `STX`-free bytes come before it, a frame takes an
idle receiver to its end with the message and its checksum decoded. -/
theorem loop_frame {front : Byte} (outer : front ≠ ESC) {noise msg frame : List Byte}
    (quiet : STX ∉ noise) (long : msg.length ≤ 23) (other : msg.length ≠ 17)
    (framed : IsFrame msg frame) (rest : List Byte) :
    ∃ final, loop 56 (noise ++ (frame ++ rest)) (idle front) =
      (⟨.ended, front, (msg ++ [calcCrc msg]).reverse, final⟩, rest) := by
  have body (message line : List Byte) (small : message.length ≤ 24) :
      loop 56 (noise ++ STX :: (lineCode.stuff message ++ line)) (idle front) =
        loop 56 line (inFrame front message.reverse
          (lastescAfter (-1) (lineCode.pairs 0 (lineCode.stuff message)))) := by
    have fresh : ∀ place ∈ (lineCode.pairs 0 (lineCode.stuff message)).head?,
        (-1 : Int) ≠ place + 1 := fun place _ => by omega
    rw [loop_noise quiet _ front (by decide), loop_stuffed outer message fresh (by omega)]
  rcases framed with rfl | ⟨complete, crc, rfl⟩
  · have measured : ((msg ++ [calcCrc msg]).reverse).length = msg.length + 1 := by
      rw [List.length_reverse, List.length_append, List.length_singleton]
    refine ⟨lastescAfter (-1) (lineCode.pairs 0 (frameBody msg)), ?_⟩
    rw [writeStream_eq, List.cons_append, List.append_assoc, frameBody,
      body _ _ (by rw [← List.length_reverse]; omega)]
    exact loop_ETX rest (by omega) (by omega)
  · have measured : (msg.reverse).length = 18 := by rw [List.length_reverse, complete]
    refine ⟨lastescAfter (-1) (lineCode.pairs 0 (lineCode.stuff msg)), ?_⟩
    rw [deviceFrame, List.cons_append, List.append_assoc, body _ _ (by omega), crc,
      List.reverse_append]
    -- the first ETX is taken as the checksum, the second one ends the frame
    have checksum := @feed_checksum_ETX front _
      (lastescAfter (-1) (lineCode.pairs 0 (lineCode.stuff msg))) measured
    change loop 56 (ETX :: ETX :: rest) _ = _
    rw [loop_step inFrame_running ETX _ (by
      rw [checksum, inFrame_cells, List.length_cons]
      omega), checksum]
    exact loop_ETX rest (by rw [List.length_cons]; omega) (by rw [List.length_cons]; omega)

end Receiver

/-- A stretch of the stream: `STX`-free bytes and then a message in its frame. -/
structure Segment where
  noise : List Byte
  msg : List Byte
  frame : List Byte

/-- The messages for which frames are unambiguous. -/
structure Segment.WellFormed (segment : Segment) : Prop where
  quiet : STX ∉ segment.noise
  nonempty : 1 ≤ segment.msg.length
  short : segment.msg.length ≤ 23
  other : segment.msg.length ≠ 17
  framed : IsFrame segment.msg segment.frame

/-- The stream made of the segments and what follows them. -/
def stream (segments : List Segment) (tail : List Byte) : List Byte :=
  segments.flatMap (fun segment => segment.noise ++ segment.frame) ++ tail

/-- **One call.** On a segment and what follows it a call returns the message and stops
right behind the frame. -/
theorem readStream_segment {segment : Segment} (sound : segment.WellFormed) (rest : List Byte)
    (rxchar : Byte) {msg : Memory} (outside : msg (-1) ≠ ESC) :
    (readStream ((segment.noise ++ (segment.frame ++ rest)).map .byte) rxchar msg 56).message =
        segment.msg ∧
      (readStream ((segment.noise ++ (segment.frame ++ rest)).map .byte) rxchar msg 56).line =
        rest.map .byte := by
  obtain ⟨final, reached⟩ :=
    Receiver.loop_frame outside sound.quiet sound.short sound.other sound.framed rest
  have returned := message_readStream (segment.noise ++ (segment.frame ++ rest)) rxchar msg 56
  rw [reached, Receiver.accept_sealed] at returned
  exact returned

/-- **A call without a frame** returns nothing and takes the whole line. -/
theorem readStream_quiet {line : List Byte} (quiet : STX ∉ line) (rxchar : Byte) (msg : Memory) :
    (readStream (line.map .byte) rxchar msg 56).message = [] ∧
      (readStream (line.map .byte) rxchar msg 56).line = [] := by
  have skipped := @Receiver.loop_outside 56 line [] (Receiver.idle (msg (-1))) rfl quiet
    (show 0 ≠ 56 by decide)
  have returned := message_readStream line rxchar msg 56
  rw [List.append_nil] at skipped
  rw [skipped] at returned
  exact returned

theorem stream_cons (segment : Segment) (segments : List Segment) (tail : List Byte) :
    stream (segment :: segments) tail =
      segment.noise ++ (segment.frame ++ stream segments tail) := by
  rw [stream, List.flatMap_cons, List.append_assoc, List.append_assoc]
  rfl

/-- Successive calls of `readStream`, each with what its `rxchar` and its buffer
hold at the start: the messages returned, with the line after each call. -/
def readMessages (max : Nat) : List (Byte × Memory) → List Poll → List (List Byte × List Poll)
  | [], _ => []
  | (rxchar, msg) :: calls, line =>
      let result := readStream line rxchar msg max
      (result.message, result.line) :: readMessages max calls result.line

/-- The messages of a stream, with the bytes after each frame. -/
def deliveries : List Segment → List Byte → List (List Byte × List Poll)
  | [], _ => []
  | segment :: segments, tail =>
      (segment.msg, (stream segments tail).map .byte) :: deliveries segments tail

/-- **Framing round trip.** On a stream of frames with `STX`-free bytes before
and between them, each call returns the next message unaltered and stops right
behind the frame's terminator. -/
theorem readMessages_stream (segments : List Segment) (tail : List Byte)
    (wellFormed : ∀ segment ∈ segments, segment.WellFormed) (calls : List (Byte × Memory))
    (enough : calls.length = segments.length)
    (outer : ∀ call ∈ calls, call.2 (-1) ≠ ESC) :
    readMessages 56 calls ((stream segments tail).map .byte) = deliveries segments tail := by
  induction segments generalizing calls with
  | nil =>
      rw [List.length_nil, List.length_eq_zero_iff] at enough
      rw [enough]
      rfl
  | cons segment segments ih =>
      obtain ⟨⟨rxchar, msg⟩, calls, rfl⟩ := List.exists_cons_of_length_eq_add_one enough
      obtain ⟨message, line⟩ := readStream_segment (wellFormed segment List.mem_cons_self)
        (stream segments tail) rxchar (outer _ List.mem_cons_self)
      rw [stream_cons, readMessages, deliveries, message, line]
      congr 1
      exact ih (fun other member => wellFormed other (List.mem_cons_of_mem _ member)) calls
        (Nat.succ.inj enough) fun call member => outer call (List.mem_cons_of_mem _ member)

/-- An escaped message and an 18-byte one in the device's framing, back to back. -/
theorem readMessages_two_frames :
    let segments : List Segment :=
      [⟨[0x7F, 0x01], [0x7D], writeStream [0x7D]⟩,
        ⟨[], 0x80 :: List.replicate 17 0, deviceFrame (0x80 :: List.replicate 17 0)⟩]
    readMessages 56 [(0, fun _ => 0), (0, fun _ => 0)] ((stream segments [0x7D]).map .byte) =
      deliveries segments [0x7D] := by
  refine readMessages_stream _ _ ?_ _ rfl (by decide)
  intro segment member
  rcases List.mem_cons.mp member with rfl | member
  · exact ⟨by decide, by decide, by decide, by decide, Or.inl rfl⟩
  · rw [List.mem_singleton.mp member]
    exact ⟨by decide, by decide, by decide, by decide, Or.inr ⟨by decide, by decide, rfl⟩⟩

end TsBat3

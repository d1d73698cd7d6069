import TsBat3.Stream.Resync
import TsBat3.Vendor.Decoder

/-! # Behind a frame that is cut short

To the vendor's reader the start of a frame inside another is an error, and it waits for the next
start. A frame that is cut short therefore costs it the frame behind, which `readStream` still
returns (`TsBat3.readers_part_at_cut`). Behind the first half of an escape pair the start is taken
for the second half, and the two frames for one.
-/

namespace TsBat3

/-- A terminator delivers what has been stored, or drops it. -/
theorem packetLoop_ETX {fr : ByteArrayRef} {cells : List Byte} (holding : Holding fr cells)
    (filled : cells ≠ []) (room : cells.length < 500) (line : List Poll) :
    packetLoop (.byte ETX :: line) fr =
      if Sealed cells then (some { fr with len := cells.length }, line)
      else packetLoop line { fr with len := 0 } := by
  have finished : ByteArray_PacketGet fr ETX = { fr with len := cells.length } :=
    holding.terminator filled room
  have bytes : ByteArrayRef.bytes { fr with len := (cells.length : Int) } = cells := holding.arr
  have longer : (cells.length : Int) > 0 := Int.natCast_pos.mpr (List.length_pos_iff.mpr filled)
  rw [packetLoop, finished]
  dsimp only
  rw [if_pos longer, ofInt_checksum, bytes]
  rfl

/-- What has been sent of a frame is held. -/
theorem filePacketGet_opened {cut : List Byte} (short : cut.length < 500) (line : List Byte)
    (fr : ByteArrayRef) : ∃ held, Holding held cut ∧
      filePacketGet ((STX :: (lineCode.stuff cut ++ line)).map .byte) fr =
        packetLoop (line.map .byte) held := by
  have opened : Holding { fr with len := -500 } [] := ⟨rfl, rfl⟩
  have started : filePacketGet ((STX :: (lineCode.stuff cut ++ line)).map .byte) fr =
      packetLoop ((lineCode.stuff cut ++ line).map .byte) { fr with len := -500 } := rfl
  obtain ⟨held, holding, run⟩ := packetLoop_stuffed cut (line.map .byte) opened
    (by rw [List.length_nil, Nat.zero_add]; exact short)
  rw [List.nil_append] at holding
  refine ⟨held, holding, ?_⟩
  rw [started, List.map_append, run]

/-- The frame behind whole symbols of another is skipped, and the next one delivered. -/
theorem filePacketGet_cut {cut msg between : List Byte} (begun : cut ≠ [])
    (short : cut.length < 500) (lost : List Byte) (quiet : STX ∉ between) (fits : msg.length < 499)
    (rest : List Byte) (fr : ByteArrayRef) :
    ∃ pkt, filePacketGet ((STX :: (lineCode.stuff cut ++
        (writeStream lost ++ (between ++ (writeStream msg ++ rest))))).map .byte) fr =
          (some pkt, rest.map .byte) ∧
      pkt.bytes = msg ++ [calcCrc msg] := by
  have skipped : STX ∉ frameBody lost ++ ETX :: between := by
    intro member
    rcases List.mem_append.mp member with inside | behind
    · exact STX_not_mem_stuff _ inside
    · rcases List.mem_cons.mp behind with same | later
      · exact absurd same (by decide)
      · exact quiet later
  have line : writeStream lost ++ (between ++ (writeStream msg ++ rest)) =
      STX :: ((frameBody lost ++ ETX :: between) ++ (writeStream msg ++ rest)) := by
    rw [writeStream_eq lost, List.cons_append, List.append_assoc, List.append_assoc]
    rfl
  obtain ⟨held, holding, run⟩ := filePacketGet_opened short
    (writeStream lost ++ (between ++ (writeStream msg ++ rest))) fr
  have dropped : ByteArray_PacketGet held STX = { held with len := 0 } :=
    (packetGet_STX holding short).trans (if_neg begun)
  obtain ⟨pkt, delivered, bytes⟩ := filePacketGet_frame skipped fits rest held
  refine ⟨pkt, ?_, bytes⟩
  rw [run, line, List.map_cons, packetLoop_step (by rw [dropped]), dropped]
  exact delivered

/-- A frame that is cut short, the start of the next one as the second half of an escape pair, and
the next one. -/
def glued (cut lost : List Byte) : List Byte :=
  cut ++ [STX ^^^ escBit] ++ (lost ++ [calcCrc lost])

private theorem length_glued (cut lost : List Byte) :
    (glued cut lost).length = cut.length + lost.length + 2 := by
  simp only [glued, List.length_append, List.length_singleton]
  omega

private theorem sealed_glued (cut lost : List Byte) :
    Sealed (glued cut lost) ↔ cut.sum + (STX ^^^ escBit) = 0 := by
  unfold Sealed glued
  rw [List.sum_append, sum_sealed, List.sum_append, List.sum_singleton]
  exact add_eq_right

/-- A frame that is cut short behind the first half of an escape pair is taken for one with the
frame behind it. If the checksum is right that is delivered, else the next frame. -/
theorem filePacketGet_glued {cut lost msg between : List Byte}
    (short : cut.length + lost.length < 498) (quiet : STX ∉ between) (fits : msg.length < 499)
    (rest : List Byte) (fr : ByteArrayRef) :
    ∃ pkt left, filePacketGet ((STX :: (lineCode.stuff cut ++ (ESC ::
        (writeStream lost ++ (between ++ (writeStream msg ++ rest)))))).map .byte) fr =
          (some pkt, left) ∧
      if cut.sum + (STX ^^^ escBit) = 0 then
        pkt.bytes = glued cut lost ∧ left = (between ++ (writeStream msg ++ rest)).map .byte
      else pkt.bytes = msg ++ [calcCrc msg] ∧ left = rest.map .byte := by
  have whole := length_glued cut lost
  have line : writeStream lost ++ (between ++ (writeStream msg ++ rest)) =
      STX :: (frameBody lost ++ ETX :: (between ++ (writeStream msg ++ rest))) := by
    rw [writeStream_eq lost, List.cons_append, List.append_assoc]
    rfl
  obtain ⟨held, holding, run⟩ := filePacketGet_opened (by omega : cut.length < 500)
    (ESC :: (writeStream lost ++ (between ++ (writeStream msg ++ rest)))) fr
  have pending : ByteArray_PacketGet held ESC = _ := holding.escape (by omega)
  have stored := holding.escaped STX
  rw [← pending] at stored
  obtain ⟨final, complete, through⟩ := packetLoop_stuffed (lost ++ [calcCrc lost])
    ((ETX :: (between ++ (writeStream msg ++ rest))).map .byte) stored (by
      simp only [List.length_append, List.length_singleton]
      omega)
  change Holding final (glued cut lost) at complete
  have filled : glued cut lost ≠ [] := List.ne_nil_of_length_eq_add_one whole
  have ended := packetLoop_ETX complete filled (by omega)
    ((between ++ (writeStream msg ++ rest)).map .byte)
  rw [run, line, List.map_cons, List.map_cons,
    packetLoop_step (by rw [pending]; dsimp only; omega), packetLoop_step stored.len_le,
    List.map_append, frameBody]
  rw [through, List.map_cons, ended]
  by_cases seals : cut.sum + (STX ^^^ escBit) = 0
  · rw [if_pos ((sealed_glued cut lost).mpr seals)]
    refine ⟨_, _, rfl, ?_⟩
    rw [if_pos seals]
    exact ⟨complete.arr, rfl⟩
  · obtain ⟨pkt, delivered, bytes⟩ := filePacketGet_frame quiet fits rest final
    rw [if_neg (mt (sealed_glued cut lost).mp seals)]
    refine ⟨pkt, _, delivered, ?_⟩
    rw [if_neg seals]
    exact ⟨bytes, rfl⟩

/-- **Behind a cut frame the readers part.** When a frame is cut short in which something has been
sent, and its escape pairs do not collide with those of the next one, `readStream` returns the
message of the next frame. `filePacketGet` does not: it returns the message of the frame after it,
or what it takes the two frames for when the first is cut in the middle of an escape pair and the
sum happens to be right. -/
theorem readers_part_at_cut {whole part lost msg between : List Byte}
    (begins : part <+: frameBody whole) (begun : part ≠ []) (short : part.length < 18)
    (complete : lost.length = 18) (apart : ¬ PairsCollide part lost) (quiet : STX ∉ between)
    (fits : msg.length < 499) (rest : List Byte) (rxchar : Byte) {buffer : Memory}
    (outer : buffer (-1) ≠ ESC) (fr : ByteArrayRef) :
    let line := (STX :: (part ++
      (writeStream lost ++ (between ++ (writeStream msg ++ rest))))).map Poll.byte
    (readStream line rxchar buffer 56).message = lost ∧
      ∃ cut pkt left, filePacketGet line fr = (some pkt, left) ∧
        (part = lineCode.stuff cut ∨ part = lineCode.stuff cut ++ [ESC]) ∧
        if part = lineCode.stuff cut ++ [ESC] ∧ cut.sum + (STX ^^^ escBit) = 0 then
          pkt.bytes = glued cut lost ∧ left = (between ++ (writeStream msg ++ rest)).map .byte
        else pkt.bytes = msg ++ [calcCrc msg] ∧ left = rest.map .byte := by
  intro line
  have free : Receiver.Undelimited part := by
    obtain ⟨later, split⟩ := begins
    have whole := Receiver.undelimited_stuff (whole ++ [calcCrc whole])
    rw [← frameBody, ← split] at whole
    exact whole.append.1
  constructor
  · have stale : ∀ place ∈ (lineCode.pairs 0 (lineCode.stuff (lost ++ [calcCrc lost]))).head?,
        Receiver.lastescAfter (-1) (lineCode.pairs 0 part) ≠ place + 1 := by
      intro place member same
      have head := lineCode.head?_pairs_stuff 0 (lost ++ [calcCrc lost])
      simp only [Nat.zero_add, Option.map_id', lineCode_reserved] at head
      rw [head] at member
      exact apart ⟨place, (Receiver.lastescAfter_eq_succ_iff _ place).mp same, member⟩
    have measured : (lost ++ [calcCrc lost]).length = 19 := by
      rw [List.length_append, List.length_singleton, complete]
    have kept : ((lost ++ [calcCrc lost]).reverse).length = 19 := by
      rw [List.length_reverse, measured]
    rw [(message_readStream _ rxchar buffer 56).1, writeStream_eq lost, List.cons_append,
      loop_truncated outer free short, List.append_assoc, frameBody,
      Receiver.loop_stuffed outer _ stale (by omega)]
    change (Receiver.loop 56 (ETX :: _) _).1.accept = lost
    rw [Receiver.loop_ETX _ (by omega) (by omega)]
    exact Receiver.accept_sealed _ _ lost _
  · obtain ⟨cut, -, same | same⟩ := lineCode.prefix_stuff begins
    · have sized : cut.length ≤ part.length := by
        rw [same, Stuffing.length_stuff]
        exact Nat.le_add_right _ _
      have sent : cut ≠ [] := by
        rintro rfl
        exact begun same
      obtain ⟨pkt, delivered, bytes⟩ :=
        filePacketGet_cut sent (by omega) lost quiet fits rest fr
      rw [← same] at delivered
      have ends : part ≠ lineCode.stuff cut ++ [ESC] := by
        intro pending
        have longer := congrArg List.length pending
        rw [same, List.length_append, List.length_singleton] at longer
        omega
      refine ⟨cut, pkt, _, delivered, Or.inl same, ?_⟩
      rw [if_neg fun both => ends both.1]
      exact ⟨bytes, rfl⟩
    · have sized : cut.length < part.length := by
        rw [same, List.length_append, List.length_singleton, Stuffing.length_stuff]
        omega
      obtain ⟨pkt, left, delivered, taken⟩ :=
        @filePacketGet_glued cut lost msg between (by omega) quiet fits rest fr
      rw [List.append_cons, ← lineCode_esc, ← same] at delivered
      refine ⟨cut, pkt, left, delivered, Or.inr same, ?_⟩
      by_cases seals : cut.sum + (STX ^^^ escBit) = 0
      · rw [if_pos seals] at taken
        rw [if_pos ⟨same, seals⟩]
        exact taken
      · rw [if_neg seals] at taken
        rw [if_neg fun both => seals both.2]
        exact taken

/-- Behind the byte 0xA2 and the first half of an escape pair, a frame of zeros gets glued to the
frame that is cut short. -/
theorem readers_part_at_cut_glued :
    let line := (STX :: ([0xA2, ESC] ++ (writeStream (List.replicate 18 0) ++
      ([] ++ (writeStream [0x41] ++ []))))).map Poll.byte
    (readStream line 0 (fun _ => 0) 56).message = List.replicate 18 0 ∧
      ∃ cut pkt left, filePacketGet line ⟨19, fun _ => 0⟩ = (some pkt, left) ∧
        ([0xA2, ESC] = lineCode.stuff cut ∨ [0xA2, ESC] = lineCode.stuff cut ++ [ESC]) ∧
        if [0xA2, ESC] = lineCode.stuff cut ++ [ESC] ∧ cut.sum + (STX ^^^ escBit) = 0 then
          pkt.bytes = glued cut (List.replicate 18 0) ∧
            left = ([] ++ (writeStream [0x41] ++ [])).map .byte
        else pkt.bytes = [0x41] ++ [calcCrc [0x41]] ∧ left = [].map .byte :=
  readers_part_at_cut (show _ <+: frameBody [0xA2, STX] by decide) (by decide) (by decide)
    (by decide) (fun ⟨_, last, _⟩ => nomatch last) (by decide) (by decide) [] 0 (by decide)
    ⟨19, fun _ => 0⟩

end TsBat3

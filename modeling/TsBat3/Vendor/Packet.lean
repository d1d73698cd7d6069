import TsBat3.Stream.RoundTrip

/-! # The vendor's packet reader

`filePacketGet` keeps its whole state in the length of the packet it is filling:
0 before a frame, -500 behind its start, `-n` with `n` bytes, and 1000 less with an
escape symbol pending. On frames as `writeStream` makes them it delivers what
`readStream` delivers, with the checksum behind it.
-/

namespace TsBat3

/-- `ByteArrayRef`, with the memory at `arr` -/
structure ByteArrayRef where
  len : Int
  arr : Memory

/-- The bytes of a packet. -/
def ByteArrayRef.bytes (pkt : ByteArrayRef) : List Byte := pkt.arr.bytes pkt.len.toNat

def ByteArray_PacketGet (fr : ByteArrayRef) (b : Byte) : ByteArrayRef :=
  if fr.len ≤ -1000 then
    -- unescape byte
    let len := fr.len + 1000
    { len := len - 1, arr := Function.update fr.arr (-len) (b ^^^ 0x20) }
  else if fr.len = -500 then
    -- first byte of packet
    if b = 0x7D then { fr with len := -1000 }
    else if b = 0x7E then fr
    else if b = 0x7F then { fr with len := 0 }
    else { len := -1, arr := Function.update fr.arr 0 b }
  else if fr.len < 0 then
    if b = 0x7D then { fr with len := fr.len - 1000 }
    else if b = 0x7E then { fr with len := 0 }
    else if b = 0x7F then { fr with len := -fr.len }
    else { len := fr.len - 1, arr := Function.update fr.arr (-fr.len) b }
  else if b = 0x7E then { fr with len := -500 }
  else fr

def ByteArrayRef_Checksum (pkt : ByteArrayRef) : Int :=
  pkt.bytes.foldl (fun sum byte => sum + byte.toNat) 0

/-- The loops of `filePacketGet`, with the packet that is being filled. When `select`
times out the null packet is returned, whatever `tries` is; when `fgetc` finds nothing
the outer loop waits again. -/
def packetLoop : List Poll → ByteArrayRef → Option ByteArrayRef × List Poll
  | [], _ => (none, [])
  | .silent :: line, _ => (none, line)
  | .eof :: line, b => packetLoop line b
  | .byte ch :: line, b =>
      let b := ByteArray_PacketGet b ch
      if b.len > 0 then
        if BitVec.ofInt 8 (ByteArrayRef_Checksum b) = 0xFF then (some b, line)
        -- checksum failed, try again
        else packetLoop line { b with len := 0 }
      else packetLoop line b

/-- `filePacketGet` into the buffer of `fr`, with the rest of the line. -/
def filePacketGet (line : List Poll) (fr : ByteArrayRef) : Option ByteArrayRef × List Poll :=
  packetLoop line { fr with len := 0 }

private theorem checksum_loop (bytes : List Byte) (start : Int) :
    BitVec.ofInt 8 (bytes.foldl (fun sum byte => sum + (byte.toNat : Int)) start) =
      BitVec.ofInt 8 start + bytes.sum := by
  induction bytes generalizing start with
  | nil => exact (add_zero _).symm
  | cons byte bytes ih =>
      rw [List.foldl_cons, ih, List.sum_cons, BitVec.ofInt_add, BitVec.ofInt_natCast,
        BitVec.ofNat_toNat, BitVec.setWidth_eq, add_assoc]

/-- The low byte of the checksum is the sum of the packet as bytes. -/
theorem ofInt_checksum (pkt : ByteArrayRef) :
    BitVec.ofInt 8 (ByteArrayRef_Checksum pkt) = pkt.bytes.sum :=
  (checksum_loop pkt.bytes 0).trans (zero_add _)

/-- A packet inside a frame that has these bytes so far. -/
structure Holding (fr : ByteArrayRef) (cells : List Byte) : Prop where
  len : fr.len = if cells.length = 0 then -500 else -(cells.length : Int)
  arr : fr.arr.bytes cells.length = cells

namespace Holding

variable {fr : ByteArrayRef} {cells : List Byte}

theorem len_le (holding : Holding fr cells) : fr.len ≤ 0 := by
  rw [holding.len]
  split <;> omega

/-- A byte that is stored behind the others. -/
theorem store (holding : Holding fr cells) (b : Byte) :
    Holding { len := -(cells.length : Int) - 1, arr := Function.update fr.arr cells.length b }
      (cells ++ [b]) := by
  have longer : (cells ++ [b]).length = cells.length + 1 := by
    rw [List.length_append, List.length_singleton]
  constructor
  · rw [longer, if_neg (Nat.succ_ne_zero _), Nat.cast_succ, neg_add]
    rfl
  · rw [longer, Memory.bytes_push, holding.arr]

/-- A byte that is neither a delimiter nor the escape symbol is stored. -/
theorem plain (holding : Holding fr cells) (room : cells.length < 500) {b : Byte}
    (esc : b ≠ 0x7D) (stx : b ≠ 0x7E) (etx : b ≠ 0x7F) :
    Holding (ByteArray_PacketGet fr b) (cells ++ [b]) := by
  have stored := holding.store b
  have state := holding.len
  unfold ByteArray_PacketGet
  split at state
  · rename_i first
    rw [if_neg (by omega), if_pos state, if_neg esc, if_neg stx, if_neg etx]
    rw [first] at stored
    exact stored
  · rw [if_neg (by omega), if_neg (by omega), if_pos (by omega), if_neg esc, if_neg stx,
      if_neg etx, state, neg_neg]
    exact stored

/-- The escape symbol is remembered in the length. -/
theorem escape (holding : Holding fr cells) (room : cells.length < 500) :
    ByteArray_PacketGet fr 0x7D = { fr with len := -(cells.length : Int) - 1000 } := by
  have state := holding.len
  unfold ByteArray_PacketGet
  split at state
  · rename_i first
    rw [if_neg (by omega), if_pos state, if_pos rfl, first]
    rfl
  · rw [if_neg (by omega), if_neg (by omega), if_pos (by omega), if_pos rfl, state]

/-- Behind the escape symbol any byte is stored, flipped back. -/
theorem escaped (holding : Holding fr cells) (b : Byte) :
    Holding (ByteArray_PacketGet { fr with len := -(cells.length : Int) - 1000 } b)
      (cells ++ [b ^^^ escBit]) := by
  have count : -(-(cells.length : Int) - 1000 + 1000) = cells.length := by omega
  have next : -(cells.length : Int) - 1000 + 1000 - 1 = -cells.length - 1 := by omega
  unfold ByteArray_PacketGet
  rw [if_pos (show -(cells.length : Int) - 1000 ≤ -1000 by omega)]
  dsimp only
  rw [count, next]
  exact holding.store _

/-- The terminator completes a packet that is not empty. -/
theorem terminator (holding : Holding fr cells) (some : cells ≠ []) (room : cells.length < 500) :
    ByteArray_PacketGet fr 0x7F = { fr with len := cells.length } := by
  have filled : cells.length ≠ 0 := fun zero => some (List.length_eq_zero_iff.mp zero)
  have state := holding.len
  rw [if_neg filled] at state
  unfold ByteArray_PacketGet
  rw [if_neg (by omega), if_neg (by omega), if_pos (by omega), if_neg (by decide),
    if_neg (by decide), if_pos rfl, state, neg_neg]

end Holding

/-- A byte that does not complete a packet. -/
theorem packetLoop_step {fr : ByteArrayRef} {ch : Byte}
    (unfinished : (ByteArray_PacketGet fr ch).len ≤ 0) (line : List Poll) :
    packetLoop (.byte ch :: line) fr = packetLoop line (ByteArray_PacketGet fr ch) :=
  if_neg (not_lt.mpr unfinished)

/-- What comes before a frame is skipped. -/
theorem packetLoop_noise {noise : List Byte} (quiet : STX ∉ noise) (line : List Poll)
    {fr : ByteArrayRef} (waiting : fr.len = 0) :
    packetLoop (noise.map .byte ++ line) fr = packetLoop line fr := by
  induction noise with
  | nil => rfl
  | cons ch noise ih =>
      have other : ch ≠ 0x7E := fun same => quiet (same ▸ List.mem_cons_self)
      have same : ByteArray_PacketGet fr ch = fr := by
        simp only [ByteArray_PacketGet, waiting, other, ↓reduceIte, Int.reduceNeg, Int.reduceLE,
          Int.reduceEq, lt_self_iff_false]
      rw [List.map_cons, List.cons_append, packetLoop_step (by rw [same, waiting]), same]
      exact ih fun member => quiet (List.mem_cons_of_mem _ member)

/-- A stuffed message is stored behind the bytes that are there. -/
theorem packetLoop_stuffed (message : List Byte) (line : List Poll) {fr : ByteArrayRef}
    {cells : List Byte} (holding : Holding fr cells) (room : cells.length + message.length < 500) :
    ∃ next, Holding next (cells ++ message) ∧
      packetLoop ((lineCode.stuff message).map .byte ++ line) fr = packetLoop line next := by
  induction message generalizing fr cells with
  | nil => exact ⟨fr, by rwa [List.append_nil], rfl⟩
  | cons symbol message ih =>
      rw [List.length_cons] at room
      have continued {next : ByteArrayRef} (stored : Holding next (cells ++ [symbol])) :
          ∃ final, Holding final (cells ++ symbol :: message) ∧
            packetLoop ((lineCode.stuff message).map .byte ++ line) next =
              packetLoop line final := by
        obtain ⟨final, held, run⟩ := ih stored (by
          rw [List.length_append, List.length_singleton]
          omega)
        rw [List.append_assoc] at held
        exact ⟨final, held, run⟩
      rw [Stuffing.stuff_cons]
      unfold Stuffing.stuffSymbol
      by_cases reserved : lineCode.reserved symbol = true
      · have pending := holding.escape (by omega)
        have stored := holding.escaped (lineCode.flip symbol)
        have back : lineCode.flip symbol ^^^ escBit = symbol := lineCode.flip_flip symbol
        rw [back, ← pending] at stored
        obtain ⟨final, held, run⟩ := continued stored
        refine ⟨final, held, ?_⟩
        rw [if_pos reserved, ← run, lineCode_esc]
        change packetLoop (.byte 0x7D :: .byte (lineCode.flip symbol) :: _) fr = _
        rw [packetLoop_step (by rw [pending]; dsimp only; omega), packetLoop_step stored.len_le]
        rfl
      · have apart {delimiter : Byte} (other : escapes delimiter = true) : symbol ≠ delimiter := by
          rintro rfl
          exact reserved other
        have stored : Holding (ByteArray_PacketGet fr symbol) (cells ++ [symbol]) :=
          holding.plain (by omega) (apart (by decide)) (apart (by decide)) (apart (by decide))
        obtain ⟨final, held, run⟩ := continued stored
        refine ⟨final, held, ?_⟩
        rw [if_neg reserved, ← run]
        exact packetLoop_step stored.len_le _

/-- **One packet.** Whatever `STX`-free bytes come before it, a frame is delivered as the
message and its checksum, and what follows it stays on the line. -/
theorem filePacketGet_frame {noise msg : List Byte} (quiet : STX ∉ noise) (short : msg.length < 499)
    (rest : List Byte) (fr : ByteArrayRef) :
    ∃ pkt, filePacketGet ((noise ++ (writeStream msg ++ rest)).map .byte) fr =
        (some pkt, rest.map .byte) ∧
      pkt.bytes = msg ++ [calcCrc msg] := by
  have longer : (msg ++ [calcCrc msg]).length = msg.length + 1 := by
    rw [List.length_append, List.length_singleton]
  have started : ByteArray_PacketGet { fr with len := 0 } STX = { fr with len := -500 } := rfl
  have opened : Holding { fr with len := -500 } [] := ⟨rfl, rfl⟩
  obtain ⟨held, holding, run⟩ := packetLoop_stuffed (msg ++ [calcCrc msg])
    (.byte 0x7F :: rest.map .byte) opened (by rw [List.length_nil, longer]; omega)
  rw [List.nil_append] at holding
  have finished := holding.terminator (List.append_ne_nil_of_right_ne_nil _ (List.cons_ne_nil _ _))
    (by rw [longer]; omega)
  have bytes : ByteArrayRef.bytes { held with len := ((msg ++ [calcCrc msg]).length : Int) } =
      msg ++ [calcCrc msg] := holding.arr
  refine ⟨_, ?_, bytes⟩
  unfold filePacketGet
  rw [List.map_append, packetLoop_noise quiet _ rfl, writeStream_eq, List.cons_append,
    List.append_assoc, List.map_cons, List.map_append, frameBody,
    packetLoop_step (by rw [started]; exact opened.len_le), started]
  change packetLoop (_ ++ .byte 0x7F :: rest.map .byte) { fr with len := -500 } = _
  rw [run, packetLoop, finished]
  dsimp only
  rw [if_pos (by rw [longer]; omega), ofInt_checksum, bytes, sum_sealed]
  exact if_pos rfl

/-- Without a frame nothing is delivered. -/
theorem filePacketGet_quiet {line : List Byte} (quiet : STX ∉ line) (fr : ByteArrayRef) :
    filePacketGet (line.map .byte) fr = (none, []) := by
  have empty : ({ fr with len := 0 } : ByteArrayRef).len = 0 := rfl
  have skipped := packetLoop_noise quiet [] empty
  rw [List.append_nil] at skipped
  exact skipped

/-- Successive calls of `filePacketGet`, each with its buffer: the packets delivered, with
the line after each call. -/
def packetGets : List ByteArrayRef → List Poll → List (Option (List Byte) × List Poll)
  | [], _ => []
  | fr :: frs, line =>
      let (pkt, line) := filePacketGet line fr
      (pkt.map ByteArrayRef.bytes, line) :: packetGets frs line

/-- What `filePacketGet` delivers where `readStream` returns a message. -/
def packetOf (message : List Byte) : Option (List Byte) :=
  if message = [] then none else some (message ++ [calcCrc message])

/-- The messages on a line with a frame for each of `segments`, by call. -/
def messageAt (segments : List Segment) (call : Nat) : List Byte :=
  (segments[call]?.map Segment.msg).getD []

/-- A reply of the device in a frame with every reserved byte escaped. -/
structure Segment.Escaped (segment : Segment) : Prop where
  quiet : STX ∉ segment.noise
  complete : segment.msg.length = 18
  framed : segment.frame = writeStream segment.msg

theorem Segment.Escaped.wellFormed {segment : Segment} (escaped : segment.Escaped) :
    segment.WellFormed where
  quiet := escaped.quiet
  nonempty := by rw [escaped.complete]; decide
  short := by rw [escaped.complete]; decide
  other := by rw [escaped.complete]; decide
  framed := Or.inl escaped.framed

/-- **One call of each.** Both readers deliver the message of the next frame, if there is
one, and leave what is behind it on the line. -/
theorem filePacketGet_eq {segments : List Segment} {tail : List Byte} (quiet : STX ∉ tail)
    (escaped : ∀ segment ∈ segments, segment.Escaped) (rxchar : Byte) {msg : Memory}
    (outside : msg (-1) ≠ ESC) (fr : ByteArrayRef) :
    let line := (stream segments tail).map Poll.byte
    let result := readStream line rxchar msg 56
    result.message = messageAt segments 0 ∧
      (filePacketGet line fr).1.map ByteArrayRef.bytes = packetOf result.message ∧
      (filePacketGet line fr).2 = result.line ∧
      ∃ left, STX ∉ left ∧ result.line = (stream segments.tail left).map .byte := by
  intro line result
  cases segments with
  | nil =>
      obtain ⟨message, rest⟩ := readStream_quiet quiet rxchar msg
      have delivered := filePacketGet_quiet quiet fr
      change result.message = [] at message
      change filePacketGet line fr = (none, []) at delivered
      rw [delivered, message]
      exact ⟨rfl, rfl, rest.symm, [], List.not_mem_nil, rest⟩
  | cons segment segments =>
      have sound := escaped segment List.mem_cons_self
      obtain ⟨message, rest⟩ :=
        readStream_segment sound.wellFormed (stream segments tail) rxchar outside
      obtain ⟨pkt, delivered, bytes⟩ := filePacketGet_frame sound.quiet
        (show segment.msg.length < 499 by rw [sound.complete]; decide) (stream segments tail) fr
      rw [← sound.framed] at delivered
      rw [← stream_cons] at message rest delivered
      change result.message = segment.msg at message
      change result.line = _ at rest
      change filePacketGet line fr = _ at delivered
      have filled : segment.msg ≠ [] := by
        intro empty
        have complete := sound.complete
        rw [empty] at complete
        exact absurd complete (by decide)
      rw [delivered, message, rest]
      refine ⟨rfl, ?_, rfl, tail, quiet, rfl⟩
      rw [Option.map_some, bytes, packetOf, if_neg filled]

/-- **The two readers agree.** On replies framed by `writeStream`, with `STX`-free bytes
around them, call by call `filePacketGet` delivers the message that `readStream` returns
with its checksum, the message of the next frame, and leaves the same line. -/
theorem packetGets_eq (segments : List Segment) (tail : List Byte) (quiet : STX ∉ tail)
    (escaped : ∀ segment ∈ segments, segment.Escaped) (calls : List (Byte × Memory))
    (outer : ∀ call ∈ calls, call.2 (-1) ≠ ESC) (frs : List ByteArrayRef)
    (paired : frs.length = calls.length) :
    let line := (stream segments tail).map Poll.byte
    packetGets frs line =
        (readMessages 56 calls line).map (fun result => (packetOf result.1, result.2)) ∧
      (readMessages 56 calls line).map Prod.fst =
        (List.range calls.length).map (messageAt segments) := by
  intro line
  induction calls generalizing segments tail frs with
  | nil =>
      rw [List.length_nil, List.length_eq_zero_iff] at paired
      rw [paired]
      exact ⟨rfl, rfl⟩
  | cons call calls ih =>
      obtain ⟨fr, frs, rfl⟩ := List.exists_cons_of_length_eq_add_one paired
      obtain ⟨rxchar, msg⟩ := call
      obtain ⟨message, packet, same, left, free, rest⟩ :=
        filePacketGet_eq quiet escaped rxchar (outer _ List.mem_cons_self) fr
      obtain ⟨agree, messages⟩ := ih segments.tail left free
        (fun segment member => escaped segment (List.mem_of_mem_tail member))
        (fun call member => outer call (List.mem_cons_of_mem _ member)) frs
        (Nat.succ.inj paired)
      have shifted : messageAt segments ∘ Nat.succ = messageAt segments.tail := by
        funext call
        unfold messageAt
        rw [Function.comp_apply, List.getElem?_tail]
      rw [List.length_cons, List.range_succ_eq_map, List.map_cons, List.map_map, shifted,
        ← messages]
      rw [packetGets, readMessages]
      dsimp only
      rw [packet, same, rest, agree, List.map_cons, List.map_cons, message]
      exact ⟨rfl, rfl⟩

/-- Two replies full of reserved bytes, and a third call that finds none. -/
theorem packetGets_two_replies :
    let first : List Byte := 0x7D :: List.replicate 17 0x11
    let second : List Byte := 0x80 :: List.replicate 17 0
    let segments : List Segment :=
      [⟨[0x7F, 0x7D], first, writeStream first⟩, ⟨[], second, writeStream second⟩]
    let line := (stream segments [0x13]).map Poll.byte
    packetGets (List.replicate 3 ⟨256, fun _ => 0⟩) line =
        (readMessages 56 (List.replicate 3 (0, fun _ => 0)) line).map
          (fun result => (packetOf result.1, result.2)) ∧
      (readMessages 56 (List.replicate 3 (0, fun _ => 0)) line).map Prod.fst =
        (List.range 3).map (messageAt segments) := by
  intro first second segments line
  apply packetGets_eq segments [0x13] (by decide) ?_ _ (by decide) _ rfl
  intro segment member
  rcases List.mem_cons.mp member with rfl | member
  · exact ⟨by decide, rfl, rfl⟩
  · rw [List.mem_singleton.mp member]
    exact ⟨by decide, rfl, rfl⟩

end TsBat3

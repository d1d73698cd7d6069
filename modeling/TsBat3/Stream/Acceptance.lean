import TsBat3.Stream.Receiver

/-! # What `readStream` accepts

After its loop `readStream` tests the checksum alone, whatever ended the loop. A
call that returns a message has read a complete frame of it exactly when the line
has, where the call still reads, a body of whole units between `STX` and a
terminator that fits the buffer, and nothing is left over from before that `STX`:
neither the place of an escape pair nor an escape symbol in front of the buffer.
-/

namespace TsBat3

/-- The bytes a call has taken from the line. -/
def ReadResult.consumed (line : List Byte) (result : ReadResult) : List Byte :=
  line.take (line.length - result.line.length)

/-- Unescaping the body gives these bytes. The last of them may be an unescaped
`ETX`. -/
def Unescapes (body sealed : List Byte) : Prop :=
  ∃ plain msg checksum, body = plain ++ checksum ∧ sealed = msg ++ checksum ∧ ETX ∉ plain ∧
    lineCode.unstuff plain = some msg ∧ (checksum = [] ∨ checksum = [ETX])

/-- What was consumed ends with a complete frame of the message. -/
def EndsWithFrame (consumed msg : List Byte) : Prop :=
  ∃ before body, consumed = before ++ STX :: (body ++ [ETX]) ∧ STX ∉ body ∧
    Unescapes body (msg ++ [calcCrc msg])

/-- A body of whole units behind which `ETX` is a terminator: an `ETX` comes
before it in the checksum's place of an 18-byte message, and only there. -/
def Terminable (body : List Byte) : Prop :=
  ∃ plain msg, body = plain ++ (if msg.length = 18 then [ETX] else []) ∧ ETX ∉ plain ∧
    lineCode.unstuff plain = some msg

/-- Nothing in the decoder's memory affects a frame that starts now. -/
def Receiver.Unburdened (receiver : Receiver) (body : List Byte) : Prop :=
  Receiver.Settled receiver.front [] receiver.lastesc ∧
    ∀ place ∈ (lineCode.pairs 0 body).head?, receiver.lastesc ≠ place + 1

namespace Receiver

/-- The loop feeds the receiver what it consumes, and is reading until the last of
it. -/
theorem loop_consumed (max : Nat) (line : List Byte) (receiver : Receiver) :
    ∃ consumed, line = consumed ++ (loop max line receiver).2 ∧
      (loop max line receiver).1 = consumed.foldl feed receiver ∧
      ∀ first byte second, consumed = first ++ byte :: second → Reading max first receiver := by
  induction line generalizing receiver with
  | nil => exact ⟨[], rfl, rfl, fun first byte second split => by cases first <;> cases split⟩
  | cons byte line ih =>
      rw [loop]
      by_cases ended : receiver.state = .ended
      · rw [if_pos ended]
        exact ⟨[], rfl, rfl, fun first byte second split => by cases first <;> cases split⟩
      rw [if_neg ended]
      by_cases full : (receiver.feed byte).cells.length = max
      · rw [if_pos full]
        refine ⟨[byte], rfl, rfl, ?_⟩
        intro first last second split
        cases first with
        | nil => exact ended
        | cons head first =>
            cases first <;> cases (List.cons.inj split).2
      · rw [if_neg full]
        obtain ⟨consumed, whole, reached, reading⟩ := ih (receiver.feed byte)
        refine ⟨byte :: consumed, congrArg (byte :: ·) whole, reached, ?_⟩
        intro first last second split
        cases first with
        | nil => exact ended
        | cons head first =>
            obtain ⟨rfl, later⟩ := List.cons.inj split
            exact ⟨ended, full, reading first last second later⟩

/-- What is accepted are all decoded bytes but the checksum. -/
theorem cells_of_accept {receiver : Receiver} (accepted : receiver.accept ≠ []) :
    receiver.cells.reverse = receiver.accept ++ [calcCrc receiver.accept] := by
  obtain ⟨state, front, cells, lastesc⟩ := receiver
  cases cells with
  | nil => exact absurd rfl accepted
  | cons crc cells =>
      unfold accept at accepted ⊢
      dsimp only at accepted ⊢
      by_cases right : calcCrc cells.reverse = crc
      · rw [if_pos right, right, List.reverse_cons]
      · rw [if_neg right] at accepted
        exact absurd rfl accepted

/-- A terminator adds at most itself to the decoded bytes. -/
theorem feed_ETXs (receiver : Receiver) (count : Nat) :
    ∃ added, ((List.replicate count ETX).foldl feed receiver).cells.reverse =
      receiver.cells.reverse ++ List.replicate added ETX := by
  induction count generalizing receiver with
  | zero => exact ⟨0, (List.append_nil _).symm⟩
  | succ count ih =>
      obtain ⟨added, rest⟩ := ih (receiver.feed ETX)
      rw [List.replicate_succ, List.foldl_cons, rest]
      have one : (receiver.feed ETX).cells = receiver.cells ∨
          (receiver.feed ETX).cells = ETX :: receiver.cells := by
        unfold feed
        rw [if_neg (by decide), if_pos rfl]
        split
        · split
          · exact Or.inr rfl
          · exact Or.inl rfl
        · exact Or.inl rfl
      rcases one with same | grown
      · exact ⟨added, by rw [same]⟩
      · refine ⟨added + 1, ?_⟩
        rw [grown, List.reverse_cons, List.append_assoc, List.replicate_succ]
        rfl

/-- The byte before the buffer is taken for an escape symbol. -/
theorem feed_swallow {byte : Byte} {lastesc : Int} (stx : byte ≠ STX) (etx : byte ≠ ETX)
    (pending : lastesc ≠ 0) :
    (inFrame ESC [] lastesc).feed byte = inFrame (byte ^^^ escBit) [] 0 := by
  have awaiting : (inFrame ESC [] lastesc).last = ESC ∧
      (inFrame ESC [] lastesc).lastesc ≠ (inFrame ESC [] lastesc).cells.length := ⟨rfl, pending⟩
  unfold feed
  rw [if_neg stx, if_neg etx, if_pos inFrame_state, if_pos awaiting]
  rfl

private theorem flip_ne : ∀ byte : Byte, lineCode.flip byte ≠ byte := by decide

/-- **A burdened frame is misread.** When something is left over from before the
frame, the decoded bytes are not those that unescaping the body gives, whatever
terminators follow the two. -/
theorem misread {plain msg : List Byte} (free : Undelimited plain) (nonempty : plain ≠ [])
    (reads : lineCode.unstuff plain = some msg) {receiver : Receiver}
    (burdened : ¬ receiver.Unburdened plain) (left right : Nat) :
    (plain.foldl feed (inFrame receiver.front [] receiver.lastesc)).cells.reverse ++
      List.replicate left ETX ≠ msg ++ List.replicate right ETX := by
  by_cases settled : Settled receiver.front [] receiver.lastesc
  · -- a stale place: the first escape pair is kept as two bytes
    have stale : ∃ place ∈ (lineCode.pairs 0 plain).head?, receiver.lastesc = place + 1 := by
      by_contra fresh
      exact burdened ⟨settled, fun place member same => fresh ⟨place, member, same⟩⟩
    obtain ⟨place, first, same⟩ := stale
    have outer : receiver.front ≠ ESC := by
      intro escape
      have zero := settled escape
      rw [List.length_nil, same] at zero
      omega
    obtain ⟨start, second, rest, rfl, noEscape, counted⟩ := lineCode.split_of_head?_pairs first
    rw [Nat.zero_add] at counted
    obtain ⟨final, fed⟩ := feed_kept free noEscape outer
    rw [same, counted, lineCode_esc, fed, inFrame_cells, List.reverse_reverse]
    rw [lineCode.unstuff_append (lineCode.unstuff_of_not_mem noEscape), Stuffing.unstuff_pair,
      Option.map_map, Option.map_eq_some_iff] at reads
    obtain ⟨tail, inner, rfl⟩ := reads
    intro agree
    rw [Function.comp_apply, List.append_assoc, List.append_assoc] at agree
    obtain ⟨head, later⟩ := List.cons.inj (List.append_cancel_left agree)
    have other : second ≠ lineCode.esc := by
      rintro rfl
      exact flip_ne _ head.symm
    rw [lineCode.scan_plain other, lineCode.scan_eq_of_unstuff inner] at later
    exact cons_append_replicate_ne free.append.2.tail.head.2 tail left right later
  · -- the first byte is taken for the second half of a pair
    have escape : receiver.front = ESC ∧ receiver.lastesc ≠ 0 := Classical.not_imp.mp settled
    obtain ⟨byte, rest, rfl⟩ := List.exists_cons_of_ne_nil nonempty
    have fed := @feed_body rest free.tail (byte ^^^ escBit) [] 0 (fun _ => rfl)
      (fun place _ => by omega)
    rw [escape.1, List.foldl_cons, feed_swallow free.head.1 free.head.2 escape.2, fed,
      inFrame_cells, List.append_nil, List.reverse_reverse]
    by_cases pair : byte = lineCode.esc
    · rw [pair] at reads
      exact lineCode.scan_ne_unstuff_esc flip_ne reads _ _
    · rw [lineCode.unstuff_plain pair, Option.map_eq_some_iff] at reads
      obtain ⟨tail, inner, rfl⟩ := reads
      rw [lineCode.scan_eq_of_unstuff inner]
      exact (cons_append_replicate_ne free.head.2 tail right left).symm

/-- An unburdened frame is read as the stuffing code reads it. -/
theorem feed_unburdened {plain msg : List Byte} (free : Undelimited plain)
    (reads : lineCode.unstuff plain = some msg) {receiver : Receiver}
    (fresh : receiver.Unburdened plain) :
    ∃ final, plain.foldl feed (inFrame receiver.front [] receiver.lastesc) =
      inFrame receiver.front msg.reverse final := by
  have fed := feed_body plain free fresh.1 fresh.2
  rw [lineCode.scan_eq_of_unstuff reads, List.append_nil] at fed
  exact ⟨_, fed⟩

/-- A checksum behind the units of a body brings no escape pair. -/
theorem unburdened_append {plain msg checksum : List Byte}
    (reads : lineCode.unstuff plain = some msg) (noEscape : ESC ∉ checksum)
    (receiver : Receiver) :
    receiver.Unburdened (plain ++ checksum) ↔ receiver.Unburdened plain := by
  unfold Unburdened
  rw [lineCode.pairs_append reads, lineCode.pairs_of_not_mem noEscape, List.append_nil]

/-- A terminable body is read to its end as the stuffing code reads it, and its
length is not the one at which `ETX` is a checksum. -/
theorem feed_terminable {body : List Byte} (stx : STX ∉ body) (terminable : Terminable body)
    {receiver : Receiver} (fresh : receiver.Unburdened body) :
    (lineCode.scan body).length ≠ 18 ∧
      ∃ final, body.foldl feed (inFrame receiver.front [] receiver.lastesc) =
        inFrame receiver.front (lineCode.scan body).reverse final := by
  obtain ⟨plain, units, rfl, noETX, reads⟩ := terminable
  have free : Undelimited plain := ⟨fun member => stx (List.mem_append_left _ member), noETX⟩
  have noEscape : ESC ∉ if units.length = 18 then [ETX] else [] := by split <;> decide
  rw [unburdened_append reads noEscape] at fresh
  obtain ⟨final, fed⟩ := feed_unburdened free reads fresh
  rw [lineCode.scan_append reads, List.foldl_append, fed]
  by_cases complete : units.length = 18
  · have measured : units.reverse.length = 18 := List.length_reverse.trans complete
    have checksum : lineCode.scan [ETX] = [ETX] := lineCode.scan_plain (by decide) []
    rw [if_pos complete, checksum, List.length_append, complete, List.reverse_append]
    exact ⟨by decide, final, feed_checksum_ETX measured⟩
  · rw [if_neg complete, Stuffing.scan_nil, List.append_nil]
    exact ⟨complete, final, rfl⟩

/-- A frame whose decoded bytes are those of its body was unburdened. -/
theorem unburdened_of_decoded {plain units checksum : List Byte} (free : Undelimited plain)
    (nonempty : plain ≠ []) (reads : lineCode.unstuff plain = some units)
    (shape : checksum = [] ∨ checksum = [ETX]) {receiver : Receiver}
    (decoded : ((checksum ++ [ETX]).foldl feed (plain.foldl feed
      (inFrame receiver.front [] receiver.lastesc))).cells.reverse = units ++ checksum) :
    receiver.Unburdened plain := by
  by_contra burdened
  obtain ⟨count, rfl⟩ : ∃ count, checksum = List.replicate count ETX := by
    rcases shape with rfl | rfl
    · exact ⟨0, rfl⟩
    · exact ⟨1, rfl⟩
  rw [← List.replicate_succ'] at decoded
  obtain ⟨added, grown⟩ := feed_ETXs
    (plain.foldl feed (inFrame receiver.front [] receiver.lastesc)) (count + 1)
  exact misread free nonempty reads burdened added count (grown.symm.trans decoded)

/-- Behind the units of a body an `ETX` is decoded as the checksum exactly in the
checksum's place of an 18-byte message. -/
theorem checksum_of_decoded {front : Byte} {units checksum : List Byte} {lastesc : Int}
    (shape : checksum = [] ∨ checksum = [ETX])
    (decoded : ((checksum ++ [ETX]).foldl feed
      (inFrame front units.reverse lastesc)).cells.reverse = units ++ checksum)
    (running : (checksum.foldl feed (inFrame front units.reverse lastesc)).state ≠ .ended) :
    checksum = if units.length = 18 then [ETX] else [] := by
  have measured : units.reverse.length = units.length := List.length_reverse
  by_cases complete : units.length = 18
  · rw [if_pos complete]
    refine shape.resolve_left ?_
    rintro rfl
    -- the terminator would have been taken for the checksum
    rw [List.nil_append, List.foldl_cons, List.foldl_nil,
      feed_checksum_ETX (measured.trans complete), inFrame_cells, List.reverse_cons,
      List.reverse_reverse] at decoded
    exact absurd (List.append_cancel_left decoded) (by decide)
  · rw [if_neg complete]
    refine shape.resolve_right ?_
    rintro rfl
    -- the checksum would have ended the frame
    rw [List.foldl_cons, List.foldl_nil, feed_ETX (by rw [measured]; exact complete)] at running
    exact running rfl

/-- **Complete frames.** A run that stopped at the first terminator and whose
decoded bytes are a message with its checksum has read a complete frame of it
exactly when the body is terminable and the frame unburdened. -/
theorem endsWithFrame_iff {start : Receiver} {consumed msg : List Byte}
    (decoded : (consumed.foldl feed start).cells.reverse = msg ++ [calcCrc msg])
    (nonempty : msg ≠ [])
    (running : ∀ first byte second, consumed = first ++ byte :: second →
      (first.foldl feed start).state ≠ .ended) :
    EndsWithFrame consumed msg ↔
      ∃ before body, consumed = before ++ STX :: (body ++ [ETX]) ∧ STX ∉ body ∧
        Terminable body ∧ (before.foldl feed start).Unburdened body := by
  constructor
  · rintro ⟨before, body, rfl, noSTX, plain, units, checksum, rfl, sealed, noETX, reads, shape⟩
    have free : Undelimited plain := ⟨fun member => noSTX (List.mem_append_left _ member), noETX⟩
    have noEscape : ESC ∉ checksum := by rcases shape with rfl | rfl <;> decide
    rw [List.foldl_append, List.foldl_cons, feed_STX, List.append_assoc, List.foldl_append, sealed]
      at decoded
    have filled : plain ≠ [] := by
      rintro rfl
      rw [← Option.some.inj reads, List.nil_append] at sealed
      have long := congrArg List.length sealed
      rw [List.length_append, List.length_singleton] at long
      have short : checksum.length ≤ 1 := by rcases shape with rfl | rfl <;> decide
      exact nonempty (List.eq_nil_of_length_eq_zero (by omega))
    have fresh := unburdened_of_decoded free filled reads shape decoded
    obtain ⟨final, fed⟩ := feed_unburdened free reads fresh
    have unfinished := running (before ++ STX :: (plain ++ checksum)) ETX []
      (List.append_assoc before (STX :: (plain ++ checksum)) [ETX]).symm
    rw [List.foldl_append, List.foldl_cons, feed_STX, List.foldl_append, fed] at unfinished
    rw [fed] at decoded
    have ended := checksum_of_decoded shape decoded unfinished
    exact ⟨before, plain ++ checksum, rfl, noSTX, ⟨plain, units, congrArg _ ended, noETX, reads⟩,
      (unburdened_append reads noEscape _).mpr fresh⟩
  · rintro ⟨before, body, rfl, noSTX, terminable, fresh⟩
    obtain ⟨long, final, fed⟩ := feed_terminable noSTX terminable fresh
    have measured : (lineCode.scan body).reverse.length ≠ 18 := by
      rw [List.length_reverse]
      exact long
    rw [List.foldl_append, List.foldl_cons, feed_STX, List.foldl_append, fed, List.foldl_cons,
      List.foldl_nil, feed_ETX measured, List.reverse_reverse] at decoded
    obtain ⟨plain, units, rfl, noETX, reads⟩ := terminable
    have checksum : lineCode.scan (if units.length = 18 then [ETX] else []) =
        if units.length = 18 then [ETX] else [] := by
      split
      · exact lineCode.scan_plain (by decide) []
      · rfl
    rw [lineCode.scan_append reads, checksum] at decoded
    refine ⟨before, _, rfl, noSTX, plain, units, _, rfl, decoded.symm, noETX, reads, ?_⟩
    by_cases complete : units.length = 18
    · exact Or.inr (if_pos complete)
    · exact Or.inl (if_neg complete)

/-- Without `STX` a receiver outside a frame stays as it is. -/
theorem foldl_outside {line : List Byte} (stx : STX ∉ line) {receiver : Receiver}
    (outside : receiver.state ≠ .started) : line.foldl feed receiver = receiver := by
  induction line with
  | nil => rfl
  | cons byte line ih =>
      have other : byte ≠ STX := fun same => stx (same ▸ List.mem_cons_self)
      rw [List.foldl_cons, feed_outside outside other]
      exact ih fun member => stx (List.mem_cons_of_mem _ member)

private theorem length_le_foldl {line : List Byte} (stx : STX ∉ line) (receiver : Receiver) :
    receiver.cells.length ≤ (line.foldl feed receiver).cells.length := by
  induction line generalizing receiver with
  | nil => exact Nat.le_refl _
  | cons byte line ih =>
      have other : byte ≠ STX := fun same => stx (same ▸ List.mem_cons_self)
      exact (receiver.length_le_feed other).trans
        (ih (fun member => stx (List.mem_cons_of_mem _ member)) _)

/-- Bytes that neither start nor end a frame and that fit the buffer leave the loop
reading. -/
theorem reading_of_room {max : Nat} {line : List Byte} {receiver : Receiver} (stx : STX ∉ line)
    (running : (line.foldl feed receiver).state ≠ .ended)
    (room : (line.foldl feed receiver).cells.length < max) : Reading max line receiver := by
  induction line generalizing receiver with
  | nil => exact running
  | cons byte line ih =>
      have later : STX ∉ line := fun member => stx (List.mem_cons_of_mem _ member)
      have now : receiver.state ≠ .ended := by
        intro ended
        have outside : receiver.state ≠ .started := by
          rw [ended]
          exact StreamState.noConfusion
        rw [foldl_outside stx outside] at running
        exact running ended
      have most := length_le_foldl later (receiver.feed byte)
      rw [List.foldl_cons] at running room
      exact ⟨now, Nat.ne_of_lt (most.trans_lt room), ih later running room⟩

/-- **The bytes a call consumes.** They are a frame with what comes before it exactly
when the line has them, the loop reads on up to the frame, and the body fits the
buffer. -/
theorem consumed_eq_iff {max : Nat} {line consumed : List Byte} {start : Receiver}
    (whole : line = consumed ++ (loop max line start).2)
    (reading : ∀ first byte second, consumed = first ++ byte :: second → Reading max first start)
    {before body : List Byte} (stx : STX ∉ body) (terminable : Terminable body)
    (fresh : (before.foldl feed start).Unburdened body) :
    consumed = before ++ STX :: (body ++ [ETX]) ↔
      (∃ rest, line = before ++ STX :: (body ++ ETX :: rest)) ∧ Reading max before start ∧
        (lineCode.scan body).length < max := by
  obtain ⟨long, final, fed⟩ := feed_terminable stx terminable fresh
  constructor
  · intro split
    have through : Reading max (before ++ STX :: body) start :=
      reading _ ETX [] (split.trans (List.append_assoc before (STX :: body) [ETX]).symm)
    obtain ⟨earlier, _, empty, inside⟩ := reading_append.mp through
    have room := inside.length_lt (Nat.pos_of_ne_zero (Ne.symm empty))
    rw [feed_STX, fed, inFrame_cells, List.length_reverse] at room
    refine ⟨⟨(loop max line start).2, ?_⟩, earlier, room⟩
    rw [split] at whole
    refine whole.trans ?_
    rw [List.append_assoc, List.cons_append, List.append_assoc]
    rfl
  · rintro ⟨⟨rest, split⟩, earlier, room⟩
    have inside : Reading max body
        (inFrame (before.foldl feed start).front [] (before.foldl feed start).lastesc) := by
      refine reading_of_room stx ?_ ?_
      · rw [fed]
        exact inFrame_running
      · rw [fed, inFrame_cells, List.length_reverse]
        exact room
    have fits : (0 : Nat) ≠ max := by omega
    have through : Reading max (before ++ STX :: body) start :=
      reading_append.mpr ⟨earlier, earlier.running, fits, inside⟩
    have apart : line = (before ++ STX :: body) ++ ETX :: rest := by
      rw [split, List.append_assoc]
      rfl
    have left : (loop max line start).2 = rest := by
      rw [apart, through.loop, List.foldl_append, List.foldl_cons, feed_STX, fed,
        loop_ETX rest (by rw [List.length_reverse]; exact long)
          (by rw [List.length_reverse]; exact room.ne)]
    rw [left, apart, List.append_cons] at whole
    rw [← List.append_cancel_right whole, List.append_assoc]
    rfl

end Receiver

/-- **Acceptance.** A call that returns a message has read a complete frame of it
exactly when the line holds bytes that leave the call reading, `STX`, a terminable
body that fits the buffer, and `ETX`, and the decoder is unburdened at that `STX`. -/
theorem readStream_complete_iff (line : List Byte) (rxchar : Byte) (buffer : Memory) (max : Nat)
    (accepted : 0 < (readStream (line.map .byte) rxchar buffer max).ret) :
    let result := readStream (line.map .byte) rxchar buffer max
    let start := Receiver.idle (buffer (-1))
    EndsWithFrame (result.consumed line) result.message ↔
      ∃ before body rest, line = before ++ STX :: (body ++ ETX :: rest) ∧
        Receiver.Reading max before start ∧ STX ∉ body ∧ Terminable body ∧
        (lineCode.scan body).length < max ∧ (before.foldl Receiver.feed start).Unburdened body := by
  intro result start
  obtain ⟨message, rest⟩ := message_readStream line rxchar buffer max
  obtain ⟨consumed, whole, reached, reading⟩ := Receiver.loop_consumed max line start
  have taken : result.consumed line = consumed := by
    unfold ReadResult.consumed
    rw [rest, List.length_map]
    change List.take (line.length - (Receiver.loop max line start).2.length) line = consumed
    generalize (Receiver.loop max line start).2 = left at whole
    rw [whole, List.length_append, Nat.add_sub_cancel, List.take_left]
  have nonempty : result.message ≠ [] := by
    intro empty
    have counted : result.message.length = result.ret := Memory.length_bytes _ _
    rw [empty] at counted
    exact Nat.ne_of_gt accepted counted.symm
  have decoded := Receiver.cells_of_accept (message ▸ nonempty)
  rw [taken]
  rw [← message, reached] at decoded
  rw [Receiver.endsWithFrame_iff decoded nonempty fun first byte second split =>
    (reading first byte second split).running]
  constructor
  · rintro ⟨before, body, split, stx, terminable, fresh⟩
    obtain ⟨⟨rest, line⟩, earlier, room⟩ :=
      (Receiver.consumed_eq_iff whole reading stx terminable fresh).mp split
    exact ⟨before, body, rest, line, earlier, stx, terminable, room, fresh⟩
  · rintro ⟨before, body, rest, line, earlier, stx, terminable, room, fresh⟩
    exact ⟨before, body, (Receiver.consumed_eq_iff whole reading stx terminable fresh).mpr
      ⟨⟨rest, line⟩, earlier, room⟩, stx, terminable, fresh⟩

/-- A frame of one byte behind a stray terminator. -/
theorem readStream_complete_one_byte :
    let result := readStream ([ETX, STX, 0x01, 0xFE, ETX].map .byte) 0 (fun _ => 0) 56
    EndsWithFrame (result.consumed [ETX, STX, 0x01, 0xFE, ETX]) result.message :=
  (readStream_complete_iff [ETX, STX, 0x01, 0xFE, ETX] 0 (fun _ => 0) 56 (by decide)).mpr
    ⟨[ETX], [0x01, 0xFE], [], by decide, ⟨by decide, by decide, StreamState.noConfusion⟩, by decide,
      ⟨[0x01, 0xFE], [0x01, 0xFE], by decide, by decide, by decide⟩, by decide,
      fun same => absurd same (by decide), fun _ member => nomatch member⟩

/-- A frame whose terminator never arrives is accepted. -/
theorem acceptance_fails_without_terminator :
    ¬ ∀ (line : List Byte) (rxchar : Byte) (buffer : Memory) (max : Nat), 20 ≤ max →
      let result := readStream (line.map .byte) rxchar buffer max
      0 < result.ret → EndsWithFrame (result.consumed line) result.message := by
  intro complete
  obtain ⟨before, body, split, _⟩ :=
    complete [STX, 0x01, 0xFE] 0 (fun _ => 0) 56 (by decide) (by decide)
  have consumed : (readStream ([STX, 0x01, 0xFE].map .byte) 0 (fun _ => 0) 56).consumed
      [STX, 0x01, 0xFE] = [STX, 0x01, 0xFE] := by decide
  rw [consumed, ← List.cons_append, ← List.append_assoc] at split
  have last := congrArg List.getLast? split
  rw [List.getLast?_concat] at last
  exact absurd last (by decide)

end TsBat3

import TsBat3.Stream.Reader

/-! # The receiver behind `readStream`

The receiver keeps the decoded bytes as a list, newest first, above the byte
before the buffer: what `readStream` keeps as memory and a position. The two make
the same steps (`TsBat3.Decoder.abs_receive`), so a call of `readStream` returns
what the receiver accepts (`TsBat3.message_readStream`). Inside a frame the receiver
reads escape pairs as the stuffing code does, unless the place of the first pair
is the one its `lastesc` still remembers (`TsBat3.feed_body`).
-/

namespace TsBat3

/-- The decoder with its buffer as a list. `front` is the byte before the
buffer, `cells` are the bytes below the write position, newest first. -/
@[ext] structure Receiver where
  state : StreamState
  front : Byte
  cells : List Byte
  lastesc : Int

namespace Receiver

/-- The byte behind the write position. -/
def last (receiver : Receiver) : Byte := receiver.cells.headD receiver.front

def push (receiver : Receiver) (byte : Byte) : Receiver :=
  { receiver with cells := byte :: receiver.cells }

/-- Replace the byte behind the write position by an unescaped one. -/
def convert (receiver : Receiver) (byte : Byte) : Receiver :=
  match receiver.cells with
  | [] => { receiver with lastesc := 0, front := byte }
  | _ :: cells => { receiver with lastesc := cells.length + 1, cells := byte :: cells }

/-- The step on a received byte. -/
def feed (receiver : Receiver) (byte : Byte) : Receiver :=
  if byte = STX then { receiver with state := .started, cells := [] }
  else if byte = ETX then
    if receiver.state = .started then
      if receiver.cells.length = 18 then receiver.push byte
      else { receiver with state := .ended }
    else receiver
  else if receiver.state = .started then
    if receiver.last = ESC ∧ receiver.lastesc ≠ receiver.cells.length then
      receiver.convert (byte ^^^ escBit)
    else receiver.push byte
  else receiver

/-- The loop over received bytes, with the bytes it leaves on the line. -/
def loop (max : Nat) : List Byte → Receiver → Receiver × List Byte
  | [], receiver => (receiver, [])
  | byte :: line, receiver =>
      if receiver.state = .ended then (receiver, byte :: line)
      else if (receiver.feed byte).cells.length = max then (receiver.feed byte, line)
      else loop max line (receiver.feed byte)

/-- What is returned of the decoded bytes: all but the newest when that is the
checksum of the others, nothing otherwise. -/
def accept (receiver : Receiver) : List Byte :=
  match receiver.cells with
  | [] => []
  | crc :: cells => if calcCrc cells.reverse = crc then cells.reverse else []

/-- The receiver at the start of a call. -/
def idle (front : Byte) : Receiver := ⟨.notStarted, front, [], -1⟩

/-- The receiver inside a frame. -/
def inFrame (front : Byte) (cells : List Byte) (lastesc : Int) : Receiver :=
  ⟨.started, front, cells, lastesc⟩

end Receiver

namespace Decoder

/-- The receiver a decoder stands for. -/
def abs (decoder : Decoder) : Receiver where
  state := decoder.state
  front := decoder.msg (-1)
  cells := (decoder.msg.bytes decoder.pos).reverse
  lastesc := decoder.lastesc

theorem length_abs (decoder : Decoder) : decoder.abs.cells.length = decoder.pos := by
  rw [abs, List.length_reverse, Memory.length_bytes]

/-- The byte behind the write position is the one the escape test reads. -/
theorem last_abs (decoder : Decoder) : decoder.abs.last = decoder.msg (decoder.pos - 1) := by
  unfold Receiver.last abs
  cases decoder.pos with
  | zero => rfl
  | succ pos =>
      rw [Memory.bytes_succ, List.reverse_append]
      change decoder.msg pos = decoder.msg ((pos + 1 : Nat) - 1)
      congr 1
      omega

private theorem abs_append (decoder : Decoder) (byte : Byte) :
    abs { decoder with
      msg := Function.update decoder.msg decoder.pos byte
      pos := decoder.pos + 1 } = decoder.abs.push byte := by
  unfold abs Receiver.push
  ext1
  · rfl
  · exact Memory.front_update decoder.msg decoder.pos byte
  · change List.reverse (Memory.bytes (Function.update decoder.msg decoder.pos byte)
      (decoder.pos + 1)) = _
    rw [Memory.bytes_push, List.reverse_append]
    rfl
  · rfl

private theorem abs_unescape (decoder : Decoder) (byte : Byte) :
    abs { decoder with
      lastesc := decoder.pos
      msg := Function.update decoder.msg (decoder.pos - 1) byte } =
      decoder.abs.convert byte := by
  obtain ⟨rxchar, state, pos, lastesc, msg⟩ := decoder
  cases pos with
  | zero =>
      unfold abs Receiver.convert
      ext1
      · rfl
      · exact Function.update_self (-1) byte msg
      · rfl
      · rfl
  | succ pos =>
      have index : ((pos + 1 : Nat) : Int) - 1 = pos := by omega
      have cells : (Memory.bytes (Function.update msg (pos : Int) byte) (pos + 1)).reverse =
          byte :: (msg.bytes pos).reverse := by
        rw [Memory.bytes_push, List.reverse_append]
        rfl
      have older : (msg.bytes (pos + 1)).reverse = msg pos :: (msg.bytes pos).reverse := by
        rw [Memory.bytes_succ, List.reverse_append]
        rfl
      simp only [abs, Receiver.convert, index, cells, older, List.length_reverse,
        Memory.length_bytes, Receiver.mk.injEq, true_and]
      exact ⟨Memory.front_update msg pos byte, by omega⟩

/-- **The decoder makes the receiver's steps.** -/
theorem abs_receive (decoder : Decoder) :
    decoder.receive.abs = decoder.abs.feed decoder.rxchar := by
  have state : decoder.abs.state = decoder.state := rfl
  have lastesc : decoder.abs.lastesc = decoder.lastesc := rfl
  unfold receive Receiver.feed
  rw [last_abs, length_abs, state, lastesc]
  by_cases stx : decoder.rxchar = STX
  · rw [if_pos stx, if_pos stx]
    rfl
  rw [if_neg stx, if_neg stx]
  by_cases etx : decoder.rxchar = ETX
  · rw [if_pos etx, if_pos etx]
    by_cases started : decoder.state = .started
    · rw [if_pos started, if_pos started]
      by_cases checksum : decoder.pos = 18
      · rw [if_pos checksum, if_pos checksum]
        exact abs_append decoder decoder.rxchar
      · rw [if_neg checksum, if_neg checksum]
        rfl
    · rw [if_neg started, if_neg started]
  rw [if_neg etx, if_neg etx]
  by_cases started : decoder.state = .started
  · rw [if_pos started, if_pos started]
    by_cases escaped : decoder.msg (decoder.pos - 1) = ESC ∧ decoder.lastesc ≠ decoder.pos
    · rw [if_pos escaped, if_pos escaped]
      exact abs_unescape decoder (decoder.rxchar ^^^ escBit)
    · rw [if_neg escaped, if_neg escaped]
      exact abs_append decoder decoder.rxchar
  · rw [if_neg started, if_neg started]

theorem abs_readLoop (max : Nat) (line : List Byte) (decoder : Decoder) :
    (readLoop max (line.map .byte) decoder).1.abs = (decoder.abs.loop max line).1 ∧
      (readLoop max (line.map .byte) decoder).2 = (decoder.abs.loop max line).2.map .byte := by
  induction line generalizing decoder with
  | nil => exact ⟨rfl, rfl⟩
  | cons byte line ih =>
      have step : ((decoder.read (.byte byte)).receive).abs = decoder.abs.feed byte :=
        abs_receive (decoder.read (.byte byte))
      have full : (decoder.abs.feed byte).cells.length =
          ((decoder.read (.byte byte)).receive).pos := by
        rw [← step, length_abs]
      have turn : readLoop max (.byte byte :: line.map .byte) decoder =
          if decoder.abs.state = .ended then (decoder, .byte byte :: line.map .byte)
          else if (decoder.abs.feed byte).cells.length = max then
            ((decoder.read (.byte byte)).receive, line.map .byte)
          else readLoop max (line.map .byte) (decoder.read (.byte byte)).receive := by
        rw [full]
        rfl
      rw [List.map_cons, turn, Receiver.loop]
      by_cases ended : decoder.abs.state = .ended
      · rw [if_pos ended, if_pos ended]
        exact ⟨rfl, rfl⟩
      rw [if_neg ended, if_neg ended]
      by_cases stop : (decoder.abs.feed byte).cells.length = max
      · rw [if_pos stop, if_pos stop]
        exact ⟨step, rfl⟩
      · rw [if_neg stop, if_neg stop, ← step]
        exact ih _

end Decoder

/-- The message that is accepted is the one `readStream` returns. -/
theorem Decoder.accept_abs (decoder : Decoder) : decoder.abs.accept = decoder.message := by
  unfold Decoder.abs Receiver.accept Decoder.message Decoder.ret
  cases decoder.pos with
  | zero => rfl
  | succ pos =>
      have behind : decoder.msg ((pos + 1 : Nat) - 1) = decoder.msg pos := by
        congr 1
        omega
      rw [Memory.bytes_succ, List.reverse_append, behind]
      simp only [List.reverse_cons, List.reverse_nil, List.nil_append, List.cons_append,
        List.reverse_reverse, Nat.zero_lt_succ, ↓reduceIte, Nat.add_sub_cancel]
      by_cases right : calcCrc (decoder.msg.bytes pos) = decoder.msg pos
      · simp only [right, ↓reduceIte, ne_eq, not_true_eq_false]
      · simp only [right, ↓reduceIte, ne_eq, not_false_eq_true]
        rfl

/-- **What `readStream` returns.** A call on received bytes returns what the
receiver accepts and leaves on the line what the receiver leaves. -/
theorem message_readStream (line : List Byte) (rxchar : Byte) (msg : Memory) (max : Nat) :
    (readStream (line.map .byte) rxchar msg max).message =
        ((Receiver.idle (msg (-1))).loop max line).1.accept ∧
      (readStream (line.map .byte) rxchar msg max).line =
        ((Receiver.idle (msg (-1))).loop max line).2.map .byte := by
  have reached := Decoder.abs_readLoop max line
    { rxchar, state := .notStarted, pos := 0, lastesc := -1, msg }
  refine ⟨?_, reached.2⟩
  have accepted := congrArg Receiver.accept reached.1
  rw [Decoder.accept_abs] at accepted
  exact accepted

namespace Receiver

@[simp] theorem inFrame_state {front : Byte} {cells : List Byte} {lastesc : Int} :
    (inFrame front cells lastesc).state = .started := rfl

@[simp] theorem inFrame_cells {front : Byte} {cells : List Byte} {lastesc : Int} :
    (inFrame front cells lastesc).cells = cells := rfl

theorem inFrame_running {front : Byte} {cells : List Byte} {lastesc : Int} :
    (inFrame front cells lastesc).state ≠ .ended := StreamState.noConfusion

/-- Outside a frame nothing but `STX` moves the receiver. -/
theorem feed_outside {receiver : Receiver} (outside : receiver.state ≠ .started) {byte : Byte}
    (other : byte ≠ STX) : receiver.feed byte = receiver := by
  unfold feed
  rw [if_neg other, if_neg outside, if_neg outside, ite_self]

theorem feed_STX (receiver : Receiver) :
    receiver.feed STX = inFrame receiver.front [] receiver.lastesc := rfl

/-- A terminator ends the frame except in the place of an 18-byte message's
checksum. -/
theorem feed_ETX {front : Byte} {cells : List Byte} {lastesc : Int} (long : cells.length ≠ 18) :
    (inFrame front cells lastesc).feed ETX = ⟨.ended, front, cells, lastesc⟩ := by
  unfold feed
  rw [if_neg (by decide), if_pos rfl, if_pos inFrame_state,
    if_neg (show (inFrame front cells lastesc).cells.length ≠ 18 from long)]
  rfl

theorem feed_checksum_ETX {front : Byte} {cells : List Byte} {lastesc : Int}
    (complete : cells.length = 18) :
    (inFrame front cells lastesc).feed ETX = inFrame front (ETX :: cells) lastesc := by
  unfold feed
  rw [if_neg (by decide), if_pos rfl, if_pos inFrame_state,
    if_pos (show (inFrame front cells lastesc).cells.length = 18 from complete)]
  rfl

/-- The byte behind the write position does not await its other half. -/
def Settled (front : Byte) (cells : List Byte) (lastesc : Int) : Prop :=
  cells.headD front = ESC → lastesc = cells.length

theorem feed_push {front byte : Byte} {cells : List Byte} {lastesc : Int} (stx : byte ≠ STX)
    (etx : byte ≠ ETX) (settled : Settled front cells lastesc) :
    (inFrame front cells lastesc).feed byte = inFrame front (byte :: cells) lastesc := by
  have plain : ¬ ((inFrame front cells lastesc).last = ESC ∧
      (inFrame front cells lastesc).lastesc ≠ (inFrame front cells lastesc).cells.length) :=
    fun awaiting => awaiting.2 (settled awaiting.1)
  unfold feed
  rw [if_neg stx, if_neg etx, if_pos inFrame_state, if_neg plain]
  rfl

theorem feed_convert {front byte : Byte} {cells : List Byte} {lastesc : Int} (stx : byte ≠ STX)
    (etx : byte ≠ ETX) (fresh : lastesc ≠ cells.length + 1) :
    (inFrame front (ESC :: cells) lastesc).feed byte =
      inFrame front ((byte ^^^ escBit) :: cells) (cells.length + 1) := by
  have awaiting : (inFrame front (ESC :: cells) lastesc).last = ESC ∧
      (inFrame front (ESC :: cells) lastesc).lastesc ≠
        (inFrame front (ESC :: cells) lastesc).cells.length := ⟨rfl, fresh⟩
  unfold feed
  rw [if_neg stx, if_neg etx, if_pos inFrame_state, if_pos awaiting]
  rfl

/-- What `lastesc` holds after escape pairs at these places. -/
def lastescAfter (lastesc : Int) (places : List Nat) : Int :=
  places.foldl (fun _ (place : Nat) => (place : Int) + 1) lastesc

/-- A body without delimiters. -/
def Undelimited (body : List Byte) : Prop := STX ∉ body ∧ ETX ∉ body

theorem Undelimited.head {byte : Byte} {body : List Byte} (free : Undelimited (byte :: body)) :
    byte ≠ STX ∧ byte ≠ ETX :=
  ⟨fun same => free.1 (same ▸ List.mem_cons_self), fun same => free.2 (same ▸ List.mem_cons_self)⟩

theorem Undelimited.tail {byte : Byte} {body : List Byte} (free : Undelimited (byte :: body)) :
    Undelimited body :=
  ⟨fun member => free.1 (List.mem_cons_of_mem _ member),
    fun member => free.2 (List.mem_cons_of_mem _ member)⟩

theorem undelimited_stuff (message : List Byte) : Undelimited (lineCode.stuff message) :=
  ⟨STX_not_mem_stuff message, ETX_not_mem_stuff message⟩

/-- **A frame's body is read as the stuffing code reads it**, as long as its first
escape pair does not stand at the place `lastesc` remembers. -/
theorem feed_body (body : List Byte) (free : Undelimited body) {front : Byte}
    {cells : List Byte} {lastesc : Int} (settled : Settled front cells lastesc)
    (fresh : ∀ place ∈ (lineCode.pairs cells.length body).head?, lastesc ≠ place + 1) :
    body.foldl feed (inFrame front cells lastesc) =
      inFrame front ((lineCode.scan body).reverse ++ cells)
        (lastescAfter lastesc (lineCode.pairs cells.length body)) := by
  generalize start : cells.length = count at fresh ⊢
  induction count, body using Stuffing.pairs.induct lineCode generalizing cells lastesc with
  | case1 count => rfl
  | case2 count =>
      simp only [Stuffing.scan_esc, Stuffing.pairs_esc]
      exact feed_push free.head.1 free.head.2 settled
  | case3 count second body ih =>
      change Undelimited (ESC :: second :: body) at free
      rw [Stuffing.pairs_pair, List.head?_cons] at fresh
      have apart : lastesc ≠ count + 1 := fresh count rfl
      have renewed : Settled front ((second ^^^ escBit) :: cells) (count + 1) := by
        intro _
        rw [List.length_cons, start]
        rfl
      have later : ∀ place ∈ (lineCode.pairs (count + 1) body).head?,
          ((count : Int) + 1) ≠ place + 1 := by
        intro place member
        have after := lineCode.le_of_mem_pairs (List.mem_of_mem_head? member)
        omega
      rw [Stuffing.scan_pair, Stuffing.pairs_pair, List.foldl_cons, List.foldl_cons,
        lineCode_esc, feed_push free.head.1 free.head.2 settled,
        feed_convert free.tail.head.1 free.tail.head.2 (by rw [start]; exact apart), start,
        ih free.tail.tail renewed (by rw [List.length_cons, start]) later, List.reverse_cons,
        List.append_assoc]
      rfl
  | case4 count symbol body other ih =>
      rw [Stuffing.pairs_plain lineCode count other] at fresh ⊢
      have renewed : Settled front (symbol :: cells) lastesc := fun same => absurd same other
      rw [Stuffing.scan_plain lineCode other, List.foldl_cons,
        feed_push free.head.1 free.head.2 settled,
        ih free.tail renewed (by rw [List.length_cons, start]) fresh, List.reverse_cons,
        List.append_assoc]
      rfl

theorem Undelimited.append {first second : List Byte} (free : Undelimited (first ++ second)) :
    Undelimited first ∧ Undelimited second :=
  ⟨⟨fun member => free.1 (List.mem_append_left _ member),
      fun member => free.2 (List.mem_append_left _ member)⟩,
    ⟨fun member => free.1 (List.mem_append_right _ member),
      fun member => free.2 (List.mem_append_right _ member)⟩⟩

/-- **A stale pair.** When the first escape pair stands at the place `lastesc`
remembers, its escape symbol is kept, and what is behind it is read as if it
were a body of its own. -/
theorem feed_kept {plain tail : List Byte} (free : Undelimited (plain ++ ESC :: tail))
    (noEscape : ESC ∉ plain) {front : Byte} (outer : front ≠ ESC) :
    ∃ final, (plain ++ ESC :: tail).foldl feed (inFrame front [] (plain.length + 1)) =
      inFrame front (plain ++ ESC :: lineCode.scan tail).reverse final := by
  have split : plain ++ ESC :: tail = (plain ++ [ESC]) ++ tail := (List.append_cons plain ESC tail)
  rw [split] at free
  have reads := lineCode.unstuff_of_not_mem noEscape
  have noPairs : lineCode.pairs 0 (plain ++ [ESC]) = [] := by
    rw [lineCode.pairs_append reads, lineCode.pairs_of_not_mem noEscape, List.nil_append]
    exact lineCode.pairs_esc _
  have kept : lineCode.scan (plain ++ [ESC]) = plain ++ [ESC] := by
    rw [lineCode.scan_append reads]
    exact congrArg (plain ++ ·) lineCode.scan_esc
  have opened : (plain ++ [ESC]).foldl feed (inFrame front [] (plain.length + 1)) =
      inFrame front (plain ++ [ESC]).reverse (plain.length + 1) := by
    have fed := @feed_body _ free.append.1 front [] (plain.length + 1)
      (fun same => absurd same outer)
      (by rw [List.length_nil, noPairs]; exact fun place member => nomatch member)
    rw [List.length_nil, noPairs, kept, List.append_nil] at fed
    exact fed
  have measured : (plain ++ [ESC]).reverse.length = plain.length + 1 := by
    rw [List.length_reverse, List.length_append, List.length_singleton]
  -- the next pairs are all behind the place that `lastesc` remembers
  have fed := @feed_body tail free.append.2 front (plain ++ [ESC]).reverse (plain.length + 1)
    (fun _ => by rw [measured]; rfl) (by
      intro place member
      have behind := lineCode.le_of_mem_pairs (List.mem_of_mem_head? member)
      omega)
  refine ⟨lastescAfter (plain.length + 1) (lineCode.pairs (plain ++ [ESC]).reverse.length tail), ?_⟩
  rw [split, List.foldl_append, opened, fed, ← List.reverse_append, ← List.append_cons]

@[simp] theorem length_convert (receiver : Receiver) (byte : Byte) :
    (receiver.convert byte).cells.length = receiver.cells.length := by
  unfold convert
  cases receiver.cells with
  | nil => rfl
  | cons newest cells => rfl

theorem length_feed_le (receiver : Receiver) (byte : Byte) :
    (receiver.feed byte).cells.length ≤ receiver.cells.length + 1 := by
  unfold feed
  split
  · exact Nat.zero_le _
  split
  · split
    · split
      · exact Nat.le_refl _
      · exact Nat.le_succ _
    · exact Nat.le_succ _
  split
  · split
    · rw [length_convert]
      exact Nat.le_succ _
    · exact Nat.le_refl _
  · exact Nat.le_succ _

/-- Nothing but `STX` drops decoded bytes. -/
theorem length_le_feed (receiver : Receiver) {byte : Byte} (stx : byte ≠ STX) :
    receiver.cells.length ≤ (receiver.feed byte).cells.length := by
  unfold feed
  rw [if_neg stx]
  split
  · split
    · split
      · exact Nat.le_succ _
      · exact Nat.le_refl _
    · exact Nat.le_refl _
  split
  · split
    · exact (receiver.length_convert _).ge
    · exact Nat.le_succ _
  · exact Nat.le_refl _

/-- Only the terminator ends a frame. -/
theorem feed_running {receiver : Receiver} (running : receiver.state ≠ .ended) {byte : Byte}
    (other : byte ≠ ETX) : (receiver.feed byte).state ≠ .ended := by
  unfold feed convert push
  rw [if_neg other]
  split
  · exact StreamState.noConfusion
  split
  · split
    · split <;> exact running
    · exact running
  · exact running

/-- A turn of the loop that does not fill the buffer. -/
theorem loop_step {max : Nat} {receiver : Receiver} (running : receiver.state ≠ .ended)
    (byte : Byte) (line : List Byte) (room : (receiver.feed byte).cells.length ≠ max) :
    loop max (byte :: line) receiver = loop max line (receiver.feed byte) := by
  rw [loop, if_neg running, if_neg room]

/-- The loop takes in all of the bytes and is still reading behind them. -/
def Reading (max : Nat) : List Byte → Receiver → Prop
  | [], receiver => receiver.state ≠ .ended
  | byte :: line, receiver =>
      receiver.state ≠ .ended ∧ (receiver.feed byte).cells.length ≠ max ∧
        Reading max line (receiver.feed byte)

theorem Reading.loop {max : Nat} {first : List Byte} {receiver : Receiver}
    (reading : Reading max first receiver) (rest : List Byte) :
    Receiver.loop max (first ++ rest) receiver =
      Receiver.loop max rest (first.foldl feed receiver) := by
  induction first generalizing receiver with
  | nil => rfl
  | cons byte first ih =>
      obtain ⟨running, room, later⟩ := reading
      rw [List.cons_append, loop_step running _ _ room, List.foldl_cons]
      exact ih later

theorem Reading.running {max : Nat} {line : List Byte} {receiver : Receiver}
    (reading : Reading max line receiver) : (line.foldl feed receiver).state ≠ .ended := by
  induction line generalizing receiver with
  | nil => exact reading
  | cons byte line ih => exact ih reading.2.2

theorem reading_append {max : Nat} {first second : List Byte} {receiver : Receiver} :
    Reading max (first ++ second) receiver ↔
      Reading max first receiver ∧ Reading max second (first.foldl feed receiver) := by
  induction first generalizing receiver with
  | nil =>
      refine ⟨fun reading => ⟨?_, reading⟩, fun reading => reading.2⟩
      cases second with
      | nil => exact reading
      | cons byte second => exact reading.1
  | cons byte first ih =>
      constructor
      · rintro ⟨running, room, later⟩
        have both := ih.mp later
        exact ⟨⟨running, room, both.1⟩, both.2⟩
      · rintro ⟨⟨running, room, later⟩, behind⟩
        exact ⟨running, room, ih.mpr ⟨later, behind⟩⟩

/-- A loop that goes on reading has room left. -/
theorem Reading.length_lt {max : Nat} {line : List Byte} {receiver : Receiver}
    (reading : Reading max line receiver) (room : receiver.cells.length < max) :
    (line.foldl feed receiver).cells.length < max := by
  induction line generalizing receiver with
  | nil => exact room
  | cons byte line ih =>
      have grown := receiver.length_feed_le byte
      have partly := reading.2.1
      exact ih reading.2.2 (by omega)

/-- Bytes that cannot end the frame or fill the buffer leave the loop reading. -/
theorem reading_of_length {max : Nat} {line : List Byte} {receiver : Receiver}
    (running : receiver.state ≠ .ended) (etx : ETX ∉ line)
    (room : receiver.cells.length + line.length < max) : Reading max line receiver := by
  induction line generalizing receiver with
  | nil => exact running
  | cons byte line ih =>
      have other : byte ≠ ETX := fun same => etx (same ▸ List.mem_cons_self)
      have grown := receiver.length_feed_le byte
      rw [List.length_cons] at room
      exact ⟨running, by omega, ih (feed_running running other)
        (fun member => etx (List.mem_cons_of_mem _ member)) (by omega)⟩

/-- The loop takes in bytes that cannot end the frame or fill the buffer. -/
theorem loop_append {max : Nat} (first rest : List Byte) {receiver : Receiver}
    (running : receiver.state ≠ .ended) (etx : ETX ∉ first)
    (room : receiver.cells.length + first.length < max) :
    loop max (first ++ rest) receiver = loop max rest (first.foldl feed receiver) :=
  (reading_of_length running etx room).loop rest

/-- The loop skips what comes before a frame. -/
theorem loop_outside {max : Nat} (noise rest : List Byte) {receiver : Receiver}
    (outside : receiver.state = .notStarted) (stx : STX ∉ noise)
    (room : receiver.cells.length ≠ max) :
    loop max (noise ++ rest) receiver = loop max rest receiver := by
  induction noise with
  | nil => rfl
  | cons byte noise ih =>
      have other : byte ≠ STX := fun same => stx (same ▸ List.mem_cons_self)
      have waiting : receiver.state ≠ .started := by
        rw [outside]
        exact StreamState.noConfusion
      have running : receiver.state ≠ .ended := by
        rw [outside]
        exact StreamState.noConfusion
      have same := feed_outside waiting other
      rw [List.cons_append, loop_step running _ _ (by rw [same]; exact room), same]
      exact ih fun member => stx (List.mem_cons_of_mem _ member)

/-- Once the frame has ended nothing more is read. -/
theorem loop_ended (max : Nat) (line : List Byte) {receiver : Receiver}
    (ended : receiver.state = .ended) : loop max line receiver = (receiver, line) := by
  cases line with
  | nil => rfl
  | cons byte line => rw [loop, if_pos ended]

theorem settled_start {front : Byte} (outer : front ≠ ESC) (lastesc : Int) :
    Settled front [] lastesc := fun same => absurd same outer

/-- `STX` takes a running receiver to the start of a frame. -/
theorem loop_STX {max : Nat} (line : List Byte) {receiver : Receiver}
    (running : receiver.state ≠ .ended) (room : max ≠ 0) :
    loop max (STX :: line) receiver =
      loop max line (inFrame receiver.front [] receiver.lastesc) :=
  loop_step running STX line room.symm

/-- At the start of a call, `STX`-free bytes before the `STX` of a frame are
skipped. -/
theorem loop_noise {max : Nat} {noise : List Byte} (quiet : STX ∉ noise) (line : List Byte)
    (front : Byte) (room : max ≠ 0) :
    loop max (noise ++ STX :: line) (idle front) = loop max line (inFrame front [] (-1)) := by
  have waiting : (idle front).state = .notStarted := rfl
  rw [loop_outside noise _ waiting quiet (show (idle front).cells.length ≠ max from room.symm),
    loop_STX _ (by rw [waiting]; exact StreamState.noConfusion) room]
  rfl

/-- A stuffed message is decoded from the start of a frame, as long as its first
escape pair does not stand at the place `lastesc` remembers. -/
theorem loop_stuffed {max : Nat} {front : Byte} (outer : front ≠ ESC) {lastesc : Int}
    (message : List Byte)
    (fresh : ∀ place ∈ (lineCode.pairs 0 (lineCode.stuff message)).head?, lastesc ≠ place + 1)
    (room : 2 * message.length < max) (line : List Byte) :
    loop max (lineCode.stuff message ++ line) (inFrame front [] lastesc) =
      loop max line (inFrame front message.reverse
        (lastescAfter lastesc (lineCode.pairs 0 (lineCode.stuff message)))) := by
  have sized := lineCode.length_stuff_le message
  have fed := feed_body (lineCode.stuff message) (undelimited_stuff message)
    (settled_start outer lastesc) fresh
  have fits : (inFrame front [] lastesc).cells.length + (lineCode.stuff message).length < max := by
    rw [inFrame_cells, List.length_nil]
    omega
  rw [lineCode.scan_stuff, List.append_nil] at fed
  rw [loop_append _ _ inFrame_running (ETX_not_mem_stuff message) fits, fed]
  rfl

/-- A terminator behind a body that is not 18 bytes long ends the frame. -/
theorem loop_ETX {max : Nat} (line : List Byte) {front : Byte} {cells : List Byte} {lastesc : Int}
    (long : cells.length ≠ 18) (room : cells.length ≠ max) :
    loop max (ETX :: line) (inFrame front cells lastesc) =
      (⟨.ended, front, cells, lastesc⟩, line) := by
  have closed := @feed_ETX front cells lastesc long
  rw [loop_step inFrame_running ETX line (by rw [closed]; exact room), closed,
    loop_ended max line rfl]

/-- A message decoded with its checksum is accepted. -/
theorem accept_sealed (state : StreamState) (front : Byte) (msg : List Byte) (lastesc : Int) :
    accept ⟨state, front, (msg ++ [calcCrc msg]).reverse, lastesc⟩ = msg := by
  unfold accept
  rw [List.reverse_append]
  simp only [List.reverse_cons, List.reverse_nil, List.nil_append, List.cons_append,
    List.reverse_reverse, ↓reduceIte]

/-- The decoded bytes are accepted when all of them sum to 0xFF. -/
theorem accept_eq (receiver : Receiver) :
    receiver.accept =
      if receiver.cells.sum = 0xFF then receiver.cells.reverse.dropLast else [] := by
  unfold accept
  cases receiver.cells with
  | nil => rfl
  | cons crc cells =>
      have total : (cells.reverse ++ [crc]).sum = (crc :: cells).sum := by
        rw [List.sum_append, List.sum_reverse, List.sum_singleton, List.sum_cons, add_comm]
      simp only [calcCrc_eq_iff, total, List.reverse_cons, List.dropLast_concat]

end Receiver

end TsBat3

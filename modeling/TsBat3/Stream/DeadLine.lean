import TsBat3.Stream.Acceptance

/-! # A dead line

On a line at end of file `select` reports data and `read` stores none, so `readStream`
receives its last character over and over. Whether the call ends depends on what the
decoder makes of that: outside a frame and behind `STX` nothing, for ever; a terminator
ends the frame at last; any other byte fills the buffer with copies of itself.
-/

namespace TsBat3

/-- The loop on a line that begins with these polls: where it ends, if it ends within
them. -/
def readFor (max : Nat) : List Poll → Decoder → Option Decoder
  | [], _ => none
  | .silent :: _, decoder => some decoder
  | poll :: polls, decoder =>
      if decoder.state = .ended then some decoder
      else
        let decoder := (decoder.read poll).receive
        if decoder.pos = max then some decoder else readFor max polls decoder

/-- On a line that is dead behind these bytes the call ends, with the message it returns
when the line goes silent. -/
def EndsLikeSilence (max : Nat) (line : List Byte) (rxchar : Byte) (msg : Memory) : Prop :=
  ∃ count final,
    readFor max (line.map .byte ++ List.replicate count .eof) (.start rxchar msg) = some final ∧
      final.message = (readStream (line.map .byte) rxchar msg max).message

theorem readFor_turn {max : Nat} {poll : Poll} (heard : poll ≠ .silent) (polls : List Poll)
    (decoder : Decoder) :
    readFor max (poll :: polls) decoder =
      if decoder.state = .ended then some decoder
      else if (decoder.read poll).receive.pos = max then some (decoder.read poll).receive
      else readFor max polls (decoder.read poll).receive := by
  cases poll with
  | silent => exact absurd rfl heard
  | byte received => rfl
  | eof => rfl

/-- A loop that ends within some polls ends there whatever follows. -/
theorem readLoop_of_readFor {max : Nat} {polls : List Poll} {decoder final : Decoder}
    (ends : readFor max polls decoder = some final) (rest : List Poll) :
    (readLoop max (polls ++ rest) decoder).1 = final := by
  induction polls generalizing decoder with
  | nil => exact nomatch ends
  | cons poll polls ih =>
      rw [List.cons_append]
      by_cases silent : poll = .silent
      · rw [silent] at ends ⊢
        exact Option.some.inj ends
      rw [readFor_turn silent] at ends
      by_cases ended : decoder.state = .ended
      · rw [if_pos ended] at ends
        cases poll with
        | silent => exact absurd rfl silent
        | byte received => exact (congrArg Prod.fst (if_pos ended)).trans (Option.some.inj ends)
        | eof => exact (congrArg Prod.fst (if_pos ended)).trans (Option.some.inj ends)
      rw [if_neg ended] at ends
      rw [readLoop_turn silent _ ended]
      by_cases full : (decoder.read poll).receive.pos = max
      · rw [if_pos full] at ends ⊢
        exact Option.some.inj ends
      · rw [if_neg full] at ends ⊢
        exact ih ends

theorem rxchar_receive (decoder : Decoder) : decoder.receive.rxchar = decoder.rxchar := by
  unfold Decoder.receive
  split
  · rfl
  split
  · split
    · split <;> rfl
    · rfl
  split
  · split <;> rfl
  · rfl

/-- At end of file the last character is received again. -/
theorem readFor_eof (max count : Nat) (decoder : Decoder) :
    readFor max (List.replicate count .eof) decoder =
      readFor max ((List.replicate count decoder.rxchar).map .byte) decoder := by
  induction count generalizing decoder with
  | zero => rfl
  | succ count ih =>
      have again : decoder.read (.byte decoder.rxchar) = decoder.read .eof := rfl
      rw [List.replicate_succ, List.replicate_succ, List.map_cons, readFor_turn Poll.noConfusion,
        readFor_turn Poll.noConfusion, again, ih, rxchar_receive]
      rfl

/-- Behind some bytes the last of them is received again. -/
theorem readFor_dead (max count : Nat) (line : List Byte) (decoder : Decoder) :
    readFor max (line.map .byte ++ List.replicate count .eof) decoder =
      readFor max ((line ++ List.replicate count (line.getLast?.getD decoder.rxchar)).map .byte)
        decoder := by
  induction line generalizing decoder with
  | nil => exact readFor_eof max count decoder
  | cons byte line ih =>
      have last : (byte :: line).getLast?.getD decoder.rxchar =
          line.getLast?.getD (decoder.read (.byte byte)).receive.rxchar := by
        rw [rxchar_receive, List.getLast?_cons]
        rfl
      rw [List.map_cons, List.cons_append, List.cons_append, List.map_cons,
        readFor_turn Poll.noConfusion, readFor_turn Poll.noConfusion, ih, last]

/-- **Ends of the loop.** On received bytes the loop does not end while the receiver is
reading; it ends with what the receiver has, at the latest when there is another byte. -/
theorem readFor_bytes (max : Nat) (bytes : List Byte) (decoder : Decoder) :
    (Receiver.Reading max bytes decoder.abs → readFor max (bytes.map .byte) decoder = none) ∧
      (¬ Receiver.Reading max bytes decoder.abs → ∀ next, ∃ final,
        readFor max ((bytes ++ [next]).map .byte) decoder = some final ∧
          final.abs = (decoder.abs.loop max bytes).1) := by
  induction bytes generalizing decoder with
  | nil =>
      refine ⟨fun _ => rfl, fun finished next => ⟨decoder, ?_, rfl⟩⟩
      exact if_pos (not_not.mp finished)
  | cons byte bytes ih =>
      have step : (decoder.read (.byte byte)).receive.abs = decoder.abs.feed byte :=
        Decoder.abs_receive (decoder.read (.byte byte))
      have pos : (decoder.read (.byte byte)).receive.pos =
          (decoder.abs.feed byte).cells.length := by
        rw [← step, Decoder.length_abs]
      obtain ⟨reads, stops⟩ := ih (decoder.read (.byte byte)).receive
      have heard : Poll.byte byte ≠ .silent := Poll.noConfusion
      rw [step] at reads stops
      rw [Receiver.loop]
      by_cases ended : decoder.abs.state = .ended
      · refine ⟨fun reading => absurd ended reading.1, fun _ next => ⟨decoder, ?_, ?_⟩⟩
        · rw [List.cons_append, List.map_cons, readFor_turn heard]
          exact if_pos ended
        · rw [if_pos ended]
      by_cases full : (decoder.abs.feed byte).cells.length = max
      · refine ⟨fun reading => absurd full reading.2.1,
          fun _ next => ⟨(decoder.read (.byte byte)).receive, ?_, ?_⟩⟩
        · rw [List.cons_append, List.map_cons, readFor_turn heard, pos]
          exact (if_neg ended).trans (if_pos full)
        · rw [if_neg ended, if_pos full]
          exact step
      · constructor
        · intro reading
          rw [List.map_cons, readFor_turn heard, pos]
          exact (if_neg ended).trans ((if_neg full).trans (reads reading.2.2))
        · intro finished next
          obtain ⟨final, found, reached⟩ := stops (fun later => finished ⟨ended, full, later⟩) next
          refine ⟨final, ?_, ?_⟩
          · rw [List.cons_append, List.map_cons, readFor_turn heard, pos]
            exact (if_neg ended).trans ((if_neg full).trans found)
          · rw [if_neg ended, if_neg full]
            exact reached

/-- The call ends on a dead line when copies of the last byte would stop the receiver. -/
theorem endsLikeSilence_loop (max : Nat) (line : List Byte) (rxchar : Byte) (msg : Memory) :
    EndsLikeSilence max line rxchar msg ↔
      ∃ count, let bytes := line ++ List.replicate count (line.getLast?.getD rxchar)
        ¬ Receiver.Reading max bytes (.idle (msg (-1))) ∧
          (Receiver.loop max bytes (.idle (msg (-1)))).1.accept =
            (Receiver.loop max line (.idle (msg (-1)))).1.accept := by
  have received : (Decoder.start rxchar msg).rxchar = rxchar := rfl
  unfold EndsLikeSilence
  rw [(message_readStream line rxchar msg max).1]
  constructor
  · rintro ⟨count, final, found, same⟩
    rw [readFor_dead, received] at found
    refine ⟨count, fun reading => ?_, ?_⟩
    · rw [(readFor_bytes max _ (.start rxchar msg)).1 reading] at found
      exact nomatch found
    · have ends := readLoop_of_readFor found []
      have reached := (Decoder.abs_readLoop max
        (line ++ List.replicate count (line.getLast?.getD rxchar)) (.start rxchar msg)).1
      rw [List.append_nil] at ends
      rw [ends] at reached
      rw [← same, ← Decoder.accept_abs, reached]
      rfl
  · rintro ⟨count, stopped, same⟩
    obtain ⟨final, found, reached⟩ :=
      (readFor_bytes max _ (.start rxchar msg)).2 stopped (line.getLast?.getD rxchar)
    refine ⟨count + 1, final, ?_, ?_⟩
    · rw [readFor_dead, received, List.replicate_succ', ← List.append_assoc]
      exact found
    · rw [← same, ← Decoder.accept_abs, reached]
      rfl

namespace Receiver

/-- Copies of a byte stop the receiver with these bytes in the buffer, which fill it. -/
def StopsWith (max : Nat) (byte : Byte) (receiver : Receiver) (cells : List Byte) : Prop :=
  cells.length = max ∧ ∃ count, ¬ Reading max (List.replicate count byte) receiver ∧
    (loop max (List.replicate count byte) receiver).1.cells = cells

/-- A stopped receiver is where it was when it stopped. -/
theorem loop_stopped {max : Nat} {first : List Byte} {receiver : Receiver}
    (stopped : ¬ Reading max first receiver) (rest : List Byte) :
    (loop max (first ++ rest) receiver).1 = (loop max first receiver).1 := by
  induction first generalizing receiver with
  | nil => rw [List.nil_append, loop_ended max rest (not_not.mp stopped)]; rfl
  | cons byte first ih =>
      rw [List.cons_append, loop, loop]
      by_cases ended : receiver.state = .ended
      · rw [if_pos ended, if_pos ended]
      rw [if_neg ended, if_neg ended]
      by_cases full : (receiver.feed byte).cells.length = max
      · rw [if_pos full, if_pos full]
      · rw [if_neg full, if_neg full]
        exact ih fun reading => stopped ⟨ended, full, reading⟩

/-- It stops in one way only. -/
theorem StopsWith.unique {max : Nat} {byte : Byte} {receiver : Receiver} {cells : List Byte}
    (stops : StopsWith max byte receiver cells) {count : Nat}
    (stopped : ¬ Reading max (List.replicate count byte) receiver) :
    (loop max (List.replicate count byte) receiver).1.cells = cells := by
  obtain ⟨_, other, finished, reached⟩ := stops
  rcases Nat.le_total count other with less | more
  · obtain ⟨more, rfl⟩ := Nat.exists_eq_add_of_le less
    rw [← List.replicate_append_replicate, loop_stopped stopped] at reached
    exact reached
  · obtain ⟨more, rfl⟩ := Nat.exists_eq_add_of_le more
    rw [← List.replicate_append_replicate, loop_stopped finished]
    exact reached

theorem StopsWith.filled {max : Nat} {byte : Byte} {receiver next : Receiver}
    (running : receiver.state ≠ .ended) (fed : receiver.feed byte = next)
    (full : next.cells.length = max) : StopsWith max byte receiver next.cells := by
  rw [← fed] at full ⊢
  refine ⟨full, 1, fun reading => reading.2.1 full, ?_⟩
  rw [List.replicate_one, loop, if_neg running, if_pos full]

/-- Before the byte that fills the buffer there are others. -/
theorem StopsWith.before {max : Nat} {byte : Byte} {receiver next : Receiver} {cells : List Byte}
    (running : receiver.state ≠ .ended) (fed : receiver.feed byte = next)
    (room : next.cells.length ≠ max) (stops : StopsWith max byte next cells) :
    StopsWith max byte receiver cells := by
  rw [← fed] at room stops
  obtain ⟨filled, count, finished, reached⟩ := stops
  refine ⟨filled, count + 1, fun reading => finished reading.2.2, ?_⟩
  rw [List.replicate_succ, loop_step running _ _ room]
  exact reached

/-- Copies of a byte that is not reserved fill the buffer. -/
theorem stopsWith_plain {max : Nat} {byte front : Byte} (stx : byte ≠ STX) (etx : byte ≠ ETX)
    (esc : byte ≠ ESC) {cells : List Byte} {lastesc : Int}
    (settled : Settled front cells lastesc) (missing : Nat)
    (room : cells.length + (missing + 1) = max) :
    StopsWith max byte (inFrame front cells lastesc)
      (List.replicate (missing + 1) byte ++ cells) := by
  have pushed := feed_push stx etx settled
  induction missing generalizing cells with
  | zero => exact StopsWith.filled inFrame_running pushed room
  | succ missing ih =>
      have next : Settled front (byte :: cells) lastesc := fun same => absurd same esc
      have later := ih next (by rw [List.length_cons]; omega) (feed_push stx etx next)
      rw [List.replicate_succ', List.append_assoc]
      apply StopsWith.before inFrame_running pushed ?_ later
      rw [inFrame_cells, List.length_cons]
      omega

/-- The escape symbol, when the next one is stored, converts every copy but the last. -/
theorem stopsWith_esc {max : Nat} {front : Byte} {cells : List Byte} (missing : Nat)
    (room : cells.length + (missing + 1) = max) :
    StopsWith max ESC (inFrame front cells cells.length)
      (ESC :: (List.replicate missing (ESC ^^^ escBit) ++ cells)) := by
  have pushed : (inFrame front cells cells.length).feed ESC =
      inFrame front (ESC :: cells) cells.length :=
    feed_push (by decide) (by decide) fun _ => rfl
  induction missing generalizing cells with
  | zero => exact StopsWith.filled inFrame_running pushed room
  | succ missing ih =>
      have converted : (inFrame front (ESC :: cells) cells.length).feed ESC =
          inFrame front ((ESC ^^^ escBit) :: cells) ((ESC ^^^ escBit) :: cells).length :=
        feed_convert (by decide) (by decide) (by omega)
      have later := @ih ((ESC ^^^ escBit) :: cells) (by rw [List.length_cons]; omega)
        (feed_push (by decide) (by decide) fun _ => rfl)
      rw [List.replicate_succ', List.append_assoc]
      apply StopsWith.before inFrame_running pushed
      · rw [inFrame_cells, List.length_cons]
        omega
      apply StopsWith.before inFrame_running converted ?_ later
      rw [inFrame_cells, List.length_cons]
      omega

/-- The decoded bytes after copies of a byte have filled the buffer. -/
def padded (max : Nat) (byte : Byte) (receiver : Receiver) : List Byte :=
  let missing := max - receiver.cells.length
  if byte = ESC then
    -- every other copy converts the one before it
    if receiver.lastesc = receiver.cells.length then
      ESC :: (List.replicate (missing - 1) (ESC ^^^ escBit) ++ receiver.cells)
    else ESC :: (List.replicate missing (ESC ^^^ escBit) ++ receiver.cells.tail)
  else List.replicate missing byte ++ receiver.cells

/-- A byte in a frame is stored or has converted the one before it. -/
theorem feed_data {receiver : Receiver} {byte : Byte} (stx : byte ≠ STX) (etx : byte ≠ ETX)
    (started : (receiver.feed byte).state = .started) :
    (receiver.feed byte).lastesc = (receiver.feed byte).cells.length ∨
      ∃ cells, (receiver.feed byte).cells = byte :: cells := by
  unfold feed at started ⊢
  rw [if_neg stx, if_neg etx] at started ⊢
  by_cases inside : receiver.state = .started
  · rw [if_pos inside]
    split
    · apply Or.inl
      unfold convert
      cases receiver.cells with
      | nil => rfl
      | cons newest cells => rfl
    · exact Or.inr ⟨receiver.cells, rfl⟩
  · rw [if_neg inside] at started
    exact absurd started inside

/-- **What copies of a byte do.** Behind a byte that was stored or has converted another,
copies of it stop the receiver with the buffer full. -/
theorem stopsWith_padded {max : Nat} {receiver : Receiver} {byte : Byte} (stx : byte ≠ STX)
    (etx : byte ≠ ETX) (started : receiver.state = .started) (room : receiver.cells.length < max)
    (fed : receiver.lastesc = receiver.cells.length ∨ ∃ cells, receiver.cells = byte :: cells) :
    StopsWith max byte receiver (receiver.padded max byte) := by
  obtain ⟨state, front, cells, lastesc⟩ := receiver
  dsimp only at started room fed
  subst started
  obtain ⟨missing, filled⟩ : ∃ missing, cells.length + (missing + 1) = max :=
    ⟨max - cells.length - 1, by omega⟩
  have count : max - cells.length = missing + 1 := by omega
  unfold padded
  dsimp only
  rw [count]
  by_cases esc : byte = ESC
  · rw [if_pos esc, esc]
    by_cases settled : lastesc = cells.length
    · rw [if_pos settled, settled]
      exact stopsWith_esc missing filled
    · rw [if_neg settled]
      obtain ⟨rest, rfl⟩ := fed.resolve_left settled
      rw [esc] at settled ⊢
      have converted : (inFrame front (ESC :: rest) lastesc).feed ESC =
          inFrame front ((ESC ^^^ escBit) :: rest) ((ESC ^^^ escBit) :: rest).length :=
        feed_convert (by decide) (by decide) settled
      have later := @stopsWith_esc max front ((ESC ^^^ escBit) :: rest) missing filled
      rw [List.tail_cons, List.replicate_succ', List.append_assoc]
      apply StopsWith.before inFrame_running converted ?_ later
      rw [inFrame_cells]
      rw [List.length_cons] at filled ⊢
      omega
  · rw [if_neg esc]
    apply stopsWith_plain stx etx esc ?_ missing filled
    rcases fed with settled | ⟨rest, rfl⟩
    · exact fun _ => settled
    · exact fun same => absurd same esc

/-- Copies of `STX`, and of any byte outside a frame, are received for ever. -/
theorem reading_forever {max : Nat} {receiver : Receiver} {byte : Byte}
    (running : receiver.state ≠ .ended) (room : receiver.cells.length < max)
    (idle : byte = STX ∨ receiver.state ≠ .started) (count : Nat) :
    Reading max (List.replicate count byte) receiver := by
  induction count generalizing receiver with
  | zero => exact running
  | succ count ih =>
      by_cases stx : byte = STX
      · have opened : receiver.feed byte = inFrame receiver.front [] receiver.lastesc := by
          rw [stx, feed_STX]
        have empty : (inFrame receiver.front [] receiver.lastesc).cells.length < max :=
          Nat.zero_lt_of_lt room
        refine ⟨running, ?_, ?_⟩
        · rw [opened]
          exact empty.ne
        · rw [opened]
          exact ih inFrame_running empty (Or.inl stx)
      · have outside := idle.resolve_left stx
        have same := feed_outside outside stx
        refine ⟨running, ?_, ?_⟩
        · rw [same]
          exact room.ne
        · rw [same]
          exact ih running room idle

/-- A terminator that does not end the frame has completed a 19-byte buffer. -/
theorem length_of_feed_ETX {receiver : Receiver}
    (started : (receiver.feed ETX).state = .started) : (receiver.feed ETX).cells.length = 19 := by
  unfold feed at started ⊢
  rw [if_neg (by decide), if_pos rfl] at started ⊢
  by_cases inside : receiver.state = .started
  · rw [if_pos inside] at started ⊢
    by_cases complete : receiver.cells.length = 18
    · rw [if_pos complete]
      exact congrArg (· + 1) complete
    · rw [if_neg complete] at started
      exact StreamState.noConfusion started
  · rw [if_neg inside] at started
    exact absurd started inside

/-- Two buffers of different lengths are accepted alike when both are rejected. -/
theorem accept_eq_nil {first second : Receiver} (same : first.accept = second.accept)
    (apart : first.cells.length ≠ second.cells.length) : first.accept = [] := by
  by_contra some
  have one := congrArg List.length (cells_of_accept some)
  have two := congrArg List.length (cells_of_accept (same ▸ some))
  rw [List.length_reverse, List.length_append, List.length_singleton] at one two
  rw [same] at one
  exact apart (one.trans two.symm)

/-- Copies of the byte that came last stop an open frame without changing what is accepted
if it is a terminator, or if nothing is accepted either way. -/
theorem stops_alike_iff {max : Nat} {receiver : Receiver} {last : Byte} (stx : last ≠ STX)
    (started : (receiver.feed last).state = .started)
    (room : (receiver.feed last).cells.length < max) :
    (∃ count, ¬ Reading max (List.replicate count last) (receiver.feed last) ∧
        (loop max (List.replicate count last) (receiver.feed last)).1.accept =
          (receiver.feed last).accept) ↔
      last = ETX ∨ (receiver.feed last).accept = [] ∧
        accept { receiver.feed last with cells := (receiver.feed last).padded max last } = [] := by
  by_cases etx : last = ETX
  · refine ⟨fun _ => Or.inl etx, fun _ => ⟨1, ?_⟩⟩
    rw [etx] at started room ⊢
    have complete := length_of_feed_ETX started
    generalize receiver.feed ETX = stored at *
    obtain ⟨state, front, cells, lastesc⟩ := stored
    dsimp only at started complete room
    subst started
    have ends : ETX ≠ STX ∧ cells.length ≠ 18 ∧ cells.length ≠ max :=
      ⟨by decide, by omega, by omega⟩
    have closed := @feed_ETX front cells lastesc ends.2.1
    have last := @loop_ETX max [] front cells lastesc ends.2.1 ends.2.2
    refine ⟨fun reading => ?_, congrArg (fun result => result.1.accept) last⟩
    have running := reading.2.2
    change Reading max [] ((inFrame front cells lastesc).feed ETX) at running
    rw [closed] at running
    exact running rfl
  · have stops := stopsWith_padded stx etx started room (feed_data stx etx started)
    generalize receiver.feed last = stored at *
    have accepted {other : Receiver} (same : other.cells = stored.padded max last) :
        other.accept = accept { stored with cells := stored.padded max last } := by
      unfold accept
      rw [same]
    constructor
    · rintro ⟨count, stopped, same⟩
      rw [accepted (stops.unique stopped)] at same
      have apart : stored.cells.length ≠ (stored.padded max last).length := by
        rw [stops.1]
        exact room.ne
      have rejected := accept_eq_nil same.symm apart
      exact Or.inr ⟨rejected, same.trans rejected⟩
    · intro rejected
      obtain ⟨_, count, stopped, filled⟩ := stops
      obtain ⟨open_, full⟩ := rejected.resolve_left etx
      exact ⟨count, stopped, by rw [accepted filled, full, open_]⟩

/-- A call on a line that is dead behind these bytes ends as one on a silent line: the bytes
end it themselves; or they leave a frame open, and the last of them is a terminator, or
another byte than `STX` while the checksum is wrong both for what has been decoded and for
that with copies of the last byte behind it. -/
def EndsAlike (max : Nat) (line : List Byte) (receiver : Receiver) : Prop :=
  ¬ Reading max line receiver ∨
    (line.foldl feed receiver).state = .started ∧
      ∃ last, line.getLast? = some last ∧ last ≠ STX ∧
        (last = ETX ∨ (line.foldl feed receiver).accept = [] ∧
          accept { line.foldl feed receiver with
            cells := (line.foldl feed receiver).padded max last } = [])

end Receiver

open Receiver in
/-- **A dead line** ends a call like silence exactly when the bytes before it leave nothing
open that copies of the last of them would not end in the same way. -/
theorem endsLikeSilence_iff (line : List Byte) (rxchar : Byte) (msg : Memory) {max : Nat}
    (room : 0 < max) :
    EndsLikeSilence max line rxchar msg ↔ EndsAlike max line (.idle (msg (-1))) := by
  rw [endsLikeSilence_loop]
  unfold EndsAlike
  generalize start : idle (msg (-1)) = receiver
  by_cases reading : Reading max line receiver
  · have silent : Receiver.loop max line receiver = (line.foldl feed receiver, []) := by
      have whole := reading.loop []
      rwa [List.append_nil] at whole
    simp only [reading_append, reading, true_and, reading.loop, silent, not_true_eq_false, false_or]
    have running := reading.running
    have inside : (line.foldl feed receiver).cells.length < max :=
      reading.length_lt (by rw [← start]; exact room)
    by_cases quiet : line.getLast?.getD rxchar = STX ∨ (line.foldl feed receiver).state ≠ .started
    · constructor
      · rintro ⟨count, stopped, _⟩
        exact absurd (reading_forever running inside quiet count) stopped
      · rintro ⟨started, last, latest, stx, _⟩
        rw [latest] at quiet
        rcases quiet with same | other
        · exact absurd same stx
        · exact absurd started other
    obtain ⟨stx, started⟩ := not_or.mp quiet
    replace started := not_not.mp started
    rcases List.eq_nil_or_concat' line with rfl | ⟨first, last, rfl⟩
    · rw [← start] at started
      exact StreamState.noConfusion started
    have latest : (first ++ [last]).getLast? = some last := List.getLast?_concat
    rw [latest, Option.getD_some] at stx ⊢
    simp only [List.foldl_append, List.foldl_cons, List.foldl_nil] at started inside ⊢
    rw [stops_alike_iff stx started inside]
    constructor
    · exact fun alike => ⟨started, last, rfl, stx, alike⟩
    · rintro ⟨_, other, same, _, alike⟩
      cases same
      exact alike
  · refine ⟨fun _ => Or.inl reading, fun _ => ⟨0, ?_⟩⟩
    rw [List.replicate_zero, List.append_nil]
    exact ⟨reading, rfl⟩

/-- A line that dies in the middle of a frame. -/
theorem endsLikeSilence_open :
    EndsLikeSilence 56 [0x05, STX, 0x41, 0x42] 0 (fun _ => 0) ↔
      Receiver.EndsAlike 56 [0x05, STX, 0x41, 0x42] (.idle 0) :=
  endsLikeSilence_iff _ _ _ (by decide)

/-- A line that dies behind `STX` keeps the call for ever. -/
theorem dead_behind_STX :
    ¬ ∀ (line : List Byte) (rxchar : Byte) (msg : Memory), EndsLikeSilence 56 line rxchar msg := by
  intro ends
  obtain ⟨count, stopped, _⟩ := (endsLikeSilence_loop 56 [STX] 0 fun _ => 0).mp (ends _ _ _)
  exact stopped (Receiver.reading_forever StreamState.noConfusion (show 0 < 56 by decide)
    (Or.inl rfl) (count + 1))

end TsBat3

import TsBat3.Stream.Receiver
import Mathlib.Data.List.Basic

/-! # Resynchronisation after a truncated frame

A new `STX` resets the write position but not `lastesc`. A complete frame that
follows a truncated one is therefore decoded unless its first escape pair stands
at the place of the last pair of the truncated one; then the pair is kept as two
bytes and the checksum fails.
-/

namespace TsBat3

/-- The last escape pair completed in the truncated frame stands at the place of
the first byte escaped in the frame of the message. -/
def PairsCollide (truncated msg : List Byte) : Prop :=
  ∃ place, (lineCode.pairs 0 truncated).getLast? = some place ∧
    (msg ++ [calcCrc msg]).findIdx? escapes = some place

namespace Receiver

/-- After a truncated frame `lastesc` remembers the place behind its last pair. -/
theorem lastescAfter_eq_succ_iff (places : List Nat) (place : Nat) :
    lastescAfter (-1) places = place + 1 ↔ places.getLast? = some place := by
  unfold lastescAfter
  cases places using List.reverseRecOn with
  | nil =>
      rw [List.foldl_nil, List.getLast?_nil]
      constructor
      · intro same
        omega
      · intro same
        cases same
  | append_singleton places last =>
      rw [List.foldl_append, List.getLast?_concat, Option.some.injEq]
      constructor
      · intro same
        change (last : Int) + 1 = place + 1 at same
        omega
      · rintro rfl
        rfl

/-- When `lastesc` still holds the place of the first escaped byte, the decoded
bytes keep its pair as two bytes. -/
theorem loop_stale {max : Nat} {front : Byte} (outer : front ≠ ESC) {plain : List Byte}
    (noEscape : ∀ byte ∈ plain, escapes byte = false) {byte : Byte} (escaped : escapes byte = true)
    (after : List Byte) (room : 2 * (plain.length + 1 + after.length) < max) (line : List Byte) :
    ∃ final, loop max (lineCode.stuff (plain ++ byte :: after) ++ line)
        (inFrame front [] (plain.length + 1)) =
      loop max line
        (inFrame front (plain ++ ESC :: (byte ^^^ escBit) :: after).reverse final) := by
  have sized := lineCode.length_stuff_le (plain ++ byte :: after)
  rw [List.length_append, List.length_cons] at sized
  have fits : (inFrame front [] (plain.length + 1)).cells.length +
      (lineCode.stuff (plain ++ byte :: after)).length < max := by
    rw [inFrame_cells, List.length_nil]
    omega
  have split : lineCode.stuff (plain ++ byte :: after) =
      plain ++ ESC :: (byte ^^^ escBit) :: lineCode.stuff after := by
    rw [lineCode.stuff_append, lineCode.stuff_of_plain noEscape, Stuffing.stuff_cons,
      Stuffing.stuffSymbol, lineCode_reserved, if_pos escaped]
    rfl
  have bare : ESC ∉ plain := fun member => Bool.noConfusion (noEscape ESC member)
  have free := undelimited_stuff (plain ++ byte :: after)
  rw [split] at free
  obtain ⟨final, fed⟩ := feed_kept free bare outer
  have plainNext : byte ^^^ escBit ≠ lineCode.esc :=
    lineCode.esc_ne_of_plain (lineCode.plain_flip byte escaped)
  rw [lineCode.scan_plain plainNext, lineCode.scan_stuff] at fed
  refine ⟨final, ?_⟩
  rw [loop_append _ _ inFrame_running (ETX_not_mem_stuff _) fits, split, fed]

/-- Keeping an escape pair as two bytes changes the sum. -/
theorem kept_pair_ne : ∀ byte : Byte, escapes byte = true → ESC + (byte ^^^ escBit) ≠ byte := by
  decide

end Receiver

/-- The two bytes kept for an escape pair spoil the sum of a message with its
checksum. -/
theorem sum_kept_ne {plain after msg : List Byte} {byte : Byte} (escaped : escapes byte = true)
    (split : msg ++ [calcCrc msg] = plain ++ byte :: after) :
    (plain ++ ESC :: (byte ^^^ escBit) :: after).reverse.sum ≠ 0xFF := by
  intro total
  have sealed := sum_sealed msg
  rw [List.sum_reverse, List.sum_append, List.sum_cons, List.sum_cons, ← add_assoc ESC] at total
  rw [split, List.sum_append, List.sum_cons, ← total] at sealed
  exact Receiver.kept_pair_ne byte escaped (add_right_cancel (add_left_cancel sealed)).symm

/-- The first escaped byte of a message, with what is before and behind it. -/
theorem split_of_findIdx? {message : List Byte} {place : Nat}
    (first : message.findIdx? escapes = some place) :
    ∃ plain byte after, message = plain ++ byte :: after ∧
      (∀ byte ∈ plain, escapes byte = false) ∧ escapes byte = true ∧ plain.length = place := by
  obtain ⟨inside, escaped, before⟩ := List.findIdx?_eq_some_iff_getElem.mp first
  refine ⟨message.take place, message[place], message.drop (place + 1), ?_, ?_, escaped, ?_⟩
  · rw [List.cons_getElem_drop_succ, List.take_append_drop]
  · intro byte member
    obtain ⟨index, small, rfl⟩ := List.mem_take_iff_getElem.mp member
    exact Bool.eq_false_iff.mpr (before index (by omega))
  · rw [List.length_take]
    omega

/-- What a truncated frame and a complete one behind it make of an idle receiver
before the bytes of the complete one. -/
theorem loop_truncated {front : Byte} (outer : front ≠ ESC) {truncated : List Byte}
    (free : Receiver.Undelimited truncated) (short : truncated.length < 18) (line : List Byte) :
    Receiver.loop 56 (STX :: (truncated ++ STX :: line)) (.idle front) =
      Receiver.loop 56 line (.inFrame front []
        (Receiver.lastescAfter (-1) (lineCode.pairs 0 truncated))) := by
  have started := @Receiver.loop_noise 56 [] List.not_mem_nil (truncated ++ STX :: line) front
    (by decide)
  have fresh : ∀ place ∈ (lineCode.pairs 0 truncated).head?, (-1 : Int) ≠ place + 1 :=
    fun place _ => by omega
  have fed := Receiver.feed_body truncated free (Receiver.settled_start outer (-1)) fresh
  rw [List.nil_append] at started
  rw [started, Receiver.loop_append truncated _ Receiver.inFrame_running free.2 (by
    rw [Receiver.inFrame_cells, List.length_nil]
    omega), fed, Receiver.loop_STX _ Receiver.inFrame_running (by decide)]
  rfl

/-- **Resynchronisation.** A complete frame of an 18-byte message directly behind
a truncated one is returned exactly when the pairs of the two do not collide. -/
theorem readStream_resync {truncated : List Byte} (free : Receiver.Undelimited truncated)
    (short : truncated.length < 18) {msg : List Byte} (complete : msg.length = 18)
    (rest : List Byte) (rxchar : Byte) {buffer : Memory} (outer : buffer (-1) ≠ ESC) :
    (readStream ((STX :: (truncated ++ (writeStream msg ++ rest))).map .byte) rxchar buffer
        56).message = msg ↔ ¬ PairsCollide truncated msg := by
  rw [(message_readStream _ rxchar buffer 56).1, writeStream_eq, List.cons_append,
    loop_truncated outer free short, List.append_assoc, frameBody]
  have sized : (msg ++ [calcCrc msg]).length = 19 := by
    rw [List.length_append, List.length_singleton, complete]
  have head := lineCode.head?_pairs_stuff 0 (msg ++ [calcCrc msg])
  simp only [Nat.zero_add, Option.map_id', lineCode_reserved] at head
  constructor
  · rintro returned ⟨place, last, first⟩
    obtain ⟨plain, byte, after, split, noEscape, escaped, rfl⟩ := split_of_findIdx? first
    rw [(Receiver.lastescAfter_eq_succ_iff _ _).mpr last, split] at returned
    rw [split, List.length_append, List.length_cons] at sized
    obtain ⟨final, decoded⟩ := @Receiver.loop_stale 56 (buffer (-1)) outer plain noEscape byte
      escaped after (by omega) (ETX :: rest)
    have long : (plain ++ ESC :: (byte ^^^ escBit) :: after).reverse.length = 20 := by
      simp only [List.length_reverse, List.length_append, List.length_cons]
      omega
    change (Receiver.loop 56 (lineCode.stuff _ ++ ETX :: rest) _).1.accept = msg at returned
    rw [decoded, Receiver.loop_ETX rest (by omega) (by omega), Receiver.accept_eq,
      if_neg (sum_kept_ne escaped split)] at returned
    rw [← returned] at complete
    exact absurd complete (by decide)
  · intro apart
    have fresh : ∀ place ∈ (lineCode.pairs 0 (lineCode.stuff (msg ++ [calcCrc msg]))).head?,
        Receiver.lastescAfter (-1) (lineCode.pairs 0 truncated) ≠ place + 1 := by
      intro place member stale
      rw [head] at member
      exact apart ⟨place, (Receiver.lastescAfter_eq_succ_iff _ place).mp stale, member⟩
    have measured : ((msg ++ [calcCrc msg]).reverse).length = 19 := by
      rw [List.length_reverse, sized]
    rw [Receiver.loop_stuffed outer _ fresh (by omega)]
    change (Receiver.loop 56 (ETX :: rest) _).1.accept = msg
    rw [Receiver.loop_ETX rest (by omega) (by omega)]
    exact Receiver.accept_sealed _ _ msg _

/-- A frame cut off behind an ordinary byte costs nothing. -/
theorem readStream_resync_plain :
    (readStream ((STX :: ([0x41] ++ (writeStream (0x7D :: List.replicate 17 0) ++ []))).map .byte) 0
      (fun _ => 0) 56).message = 0x7D :: List.replicate 17 0 :=
  (readStream_resync (by unfold Receiver.Undelimited; decide) (by decide) (by decide) [] 0
    (by decide)).mpr fun ⟨_, last, _⟩ => nomatch last

/-- A frame cut off behind its first byte, an escaped one, costs the next frame
when that starts with an escaped byte too. -/
theorem resync_fails_on_stale_pair :
    ¬ ∀ truncated msg : List Byte, Receiver.Undelimited truncated → truncated.length < 18 →
      msg.length = 18 → ∀ (rxchar : Byte) (buffer : Memory), buffer (-1) ≠ ESC →
        (readStream ((STX :: (truncated ++ writeStream msg)).map .byte) rxchar buffer
          56).message = msg := by
  intro resync
  have returned := resync [ESC, 0x5D] (0x7D :: List.replicate 17 0)
    (by unfold Receiver.Undelimited; decide) (by decide) (by decide) 0 (fun _ => 0) (by decide)
  rw [(message_readStream _ 0 _ 56).1] at returned
  exact absurd returned (by decide)

end TsBat3

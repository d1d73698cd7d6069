import TsBat3.Stream.Reader

/-! # Where `readStream` touches its buffer

Every turn of the loop reads or writes the buffer at most at the write position and
right behind it. The position stays below the size of the buffer, so a call never goes
beyond its end; but at position 0 the escape test reads the byte before the buffer.
That happens with the first byte of every frame.
-/

namespace TsBat3

namespace Decoder

/-- The elements of the buffer that the `switch` reads or writes. -/
def touched (decoder : Decoder) : List Int :=
  if decoder.rxchar = STX then []
  else if decoder.rxchar = ETX then
    if decoder.state = .started then
      if decoder.pos = 18 then [decoder.pos] else []
    else []
  else if decoder.state = .started then
    if decoder.msg (decoder.pos - 1) = ESC ∧ decoder.lastesc ≠ decoder.pos then [decoder.pos - 1]
    else [(decoder.pos : Int) - 1, decoder.pos]
  else []

/-- The decoder with another buffer. -/
def withMsg (decoder : Decoder) (msg : Memory) : Decoder := { decoder with msg }

end Decoder

/-- The elements of the buffer that the loop reads or writes. -/
def loopTouched (max : Nat) : List Poll → Decoder → List Int
  | [], _ => []
  | .silent :: _, _ => []
  | poll :: line, decoder =>
      if decoder.state = .ended then []
      else
        let decoder := decoder.read poll
        if decoder.receive.pos = max then decoder.touched
        else decoder.touched ++ loopTouched max line decoder.receive

/-- The elements of the buffer that a call of `readStream` reads or writes: those of the
loop, and all of the decoded bytes for the checksum and the log. -/
def readStreamTouched (line : List Poll) (rxchar : Byte) (msg : Memory) (max : Nat) : List Int :=
  loopTouched max line (.start rxchar msg) ++
    (List.range (readLoop max line (.start rxchar msg)).1.pos).map fun index : Nat => (index : Int)

namespace Decoder

/-- **What a step does to the buffer**, whatever that holds: nothing; an unescaped
terminator in the place of the checksum is stored; or a byte is stored or converts the one
before it, depending on that. -/
theorem receive_cases (decoder : Decoder) :
    (∃ state pos, pos ≤ decoder.pos ∧ ∀ msg, (decoder.withMsg msg).touched = [] ∧
      (decoder.withMsg msg).receive = { decoder with state, pos, msg }) ∨
    (∀ msg, (decoder.withMsg msg).touched = [(decoder.pos : Int)] ∧
      (decoder.withMsg msg).receive =
        { decoder with
          pos := decoder.pos + 1
          msg := Function.update msg decoder.pos decoder.rxchar }) ∨
    ∀ msg, (msg (decoder.pos - 1) = ESC ∧ decoder.lastesc ≠ decoder.pos ∧
        (decoder.withMsg msg).touched = [(decoder.pos : Int) - 1] ∧
        (decoder.withMsg msg).receive =
          { decoder with
            lastesc := decoder.pos
            msg := Function.update msg (decoder.pos - 1) (decoder.rxchar ^^^ escBit) }) ∨
      (¬ (msg (decoder.pos - 1) = ESC ∧ decoder.lastesc ≠ decoder.pos) ∧
        (decoder.withMsg msg).touched = [(decoder.pos : Int) - 1, (decoder.pos : Int)] ∧
        (decoder.withMsg msg).receive =
          { decoder with
            pos := decoder.pos + 1
            msg := Function.update msg decoder.pos decoder.rxchar }) := by
  obtain ⟨rxchar, state, pos, lastesc, _⟩ := decoder
  unfold withMsg touched receive
  dsimp only
  by_cases stx : rxchar = STX
  · simp only [stx, ↓reduceIte]
    exact Or.inl ⟨.started, 0, Nat.zero_le pos, fun msg => ⟨trivial, rfl⟩⟩
  by_cases etx : rxchar = ETX
  · by_cases started : state = .started
    · by_cases complete : pos = 18
      · simp only [etx, started, complete, ↓reduceIte]
        exact Or.inr (Or.inl fun msg => ⟨rfl, rfl⟩)
      · simp only [etx, started, complete, ↓reduceIte]
        exact Or.inl ⟨.ended, pos, le_rfl, fun msg => ⟨rfl, rfl⟩⟩
    · simp only [etx, started, ↓reduceIte]
      exact Or.inl ⟨state, pos, le_rfl, fun msg => ⟨rfl, rfl⟩⟩
  by_cases started : state = .started
  · simp only [stx, etx, started, ↓reduceIte]
    apply Or.inr
    apply Or.inr
    intro msg
    by_cases escaped : msg (pos - 1) = ESC ∧ lastesc ≠ pos
    · rw [if_pos escaped, if_pos escaped]
      exact Or.inl ⟨escaped.1, escaped.2, rfl, rfl⟩
    · rw [if_neg escaped, if_neg escaped]
      exact Or.inr ⟨escaped, rfl, rfl⟩
  · simp only [stx, etx, started, ↓reduceIte]
    exact Or.inl ⟨state, pos, le_rfl, fun msg => ⟨trivial, rfl⟩⟩

/-- A step touches at most the write position and the element behind it, writes at most
one element that it touches, and moves the position by at most one. -/
theorem receive_writes (decoder : Decoder) :
    (∀ index ∈ decoder.touched, (decoder.pos : Int) - 1 ≤ index ∧ index ≤ decoder.pos) ∧
      decoder.receive.pos ≤ decoder.pos + 1 ∧
      (decoder.receive.msg = decoder.msg ∨ ∃ index ∈ decoder.touched, ∃ byte,
        decoder.receive.msg = Function.update decoder.msg index byte) := by
  have self : decoder.withMsg decoder.msg = decoder := rfl
  rcases decoder.receive_cases with ⟨state, pos, less, step⟩ | step | step
  · obtain ⟨touched, receive⟩ := step decoder.msg
    rw [self] at touched receive
    rw [touched, receive]
    exact ⟨fun index member => absurd member List.not_mem_nil, Nat.le_succ_of_le less, Or.inl rfl⟩
  · obtain ⟨touched, receive⟩ := step decoder.msg
    rw [self] at touched receive
    rw [touched, receive]
    refine ⟨?_, le_rfl, Or.inr ⟨_, List.mem_singleton_self _, _, rfl⟩⟩
    simp only [List.mem_singleton, forall_eq]
    omega
  · rcases step decoder.msg with ⟨_, _, touched, receive⟩ | ⟨_, touched, receive⟩
    · rw [self] at touched receive
      rw [touched, receive]
      refine ⟨?_, Nat.le_succ _, Or.inr ⟨_, List.mem_singleton_self _, _, rfl⟩⟩
      simp only [List.mem_singleton, forall_eq]
      omega
    · rw [self] at touched receive
      rw [touched, receive]
      refine ⟨?_, le_rfl,
        Or.inr ⟨_, List.mem_cons_of_mem _ (List.mem_singleton_self _), _, rfl⟩⟩
      simp only [List.mem_cons, List.not_mem_nil, or_false, forall_eq_or_imp, forall_eq]
      omega

/-- Nothing but what is touched is written. -/
theorem receive_untouched {decoder : Decoder} {index : Int} (apart : index ∉ decoder.touched) :
    decoder.receive.msg index = decoder.msg index := by
  rcases decoder.receive_writes.2.2 with same | ⟨place, member, byte, written⟩
  · rw [same]
  · rw [written]
    apply Function.update_of_ne
    rintro rfl
    exact apart member

/-- Nothing but what is touched is read: on a buffer that agrees there the step is the
same, and the two buffers go on to agree where they did. -/
theorem receive_agree {decoder : Decoder} {msg : Memory}
    (agree : ∀ index ∈ decoder.touched, msg index = decoder.msg index) :
    ∃ next, (decoder.withMsg msg).receive = decoder.receive.withMsg next ∧
      (decoder.withMsg msg).touched = decoder.touched ∧
      ∀ index, msg index = decoder.msg index → next index = decoder.receive.msg index := by
  have self : decoder.withMsg decoder.msg = decoder := rfl
  have stored (place : Int) (byte : Byte) (index : Int)
      (same : msg index = decoder.msg index) :
      Function.update msg place byte index = Function.update decoder.msg place byte index := by
    simp only [Function.update_apply, same]
  rcases decoder.receive_cases with ⟨state, pos, less, step⟩ | step | step
  · obtain ⟨touched, receive⟩ := step decoder.msg
    rw [self] at touched receive
    rw [(step msg).1, (step msg).2, touched, receive]
    exact ⟨msg, rfl, rfl, fun index same => same⟩
  · obtain ⟨touched, receive⟩ := step decoder.msg
    rw [self] at touched receive
    rw [(step msg).1, (step msg).2, touched, receive]
    exact ⟨_, rfl, rfl, stored _ _⟩
  · rcases step decoder.msg with ⟨esc, fresh, touched, receive⟩ | ⟨plain, touched, receive⟩
    · rw [self] at touched receive
      rw [touched] at agree
      rcases step msg with ⟨_, _, reads, writes⟩ | ⟨other, _⟩
      · rw [reads, writes, touched, receive]
        exact ⟨_, rfl, rfl, stored _ _⟩
      · rw [agree _ List.mem_cons_self] at other
        exact absurd ⟨esc, fresh⟩ other
    · rw [self] at touched receive
      rw [touched] at agree
      rcases step msg with ⟨other, fresh, _⟩ | ⟨_, reads, writes⟩
      · rw [agree _ List.mem_cons_self] at other
        exact absurd ⟨other, fresh⟩ plain
      · rw [reads, writes, touched, receive]
        exact ⟨_, rfl, rfl, stored _ _⟩

end Decoder

theorem loopTouched_turn {max : Nat} {poll : Poll} (heard : poll ≠ .silent) (line : List Poll)
    {decoder : Decoder} (running : decoder.state ≠ .ended) :
    loopTouched max (poll :: line) decoder =
      if (decoder.read poll).receive.pos = max then (decoder.read poll).touched
      else (decoder.read poll).touched ++ loopTouched max line (decoder.read poll).receive := by
  cases poll with
  | silent => exact absurd rfl heard
  | byte received => exact if_neg running
  | eof => exact if_neg running

/-- Once the frame has ended nothing is read or touched any more. -/
theorem loop_over {max : Nat} {poll : Poll} (heard : poll ≠ .silent) (line : List Poll)
    {decoder : Decoder} (ended : decoder.state = .ended) :
    readLoop max (poll :: line) decoder = (decoder, poll :: line) ∧
      loopTouched max (poll :: line) decoder = [] := by
  cases poll with
  | silent => exact absurd rfl heard
  | byte received => exact ⟨if_pos ended, if_pos ended⟩
  | eof => exact ⟨if_pos ended, if_pos ended⟩

/-- The loop touches nothing beyond the end of the buffer, and before it at most one
element. -/
theorem loop_bounds {max : Nat} (line : List Poll) {decoder : Decoder} (room : decoder.pos < max) :
    (∀ index ∈ loopTouched max line decoder, -1 ≤ index ∧ index < max) ∧
      (readLoop max line decoder).1.pos ≤ max := by
  induction line generalizing decoder with
  | nil => exact ⟨fun index member => absurd member List.not_mem_nil, room.le⟩
  | cons poll line ih =>
      by_cases silent : poll = .silent
      · rw [silent]
        exact ⟨fun index member => absurd member List.not_mem_nil, room.le⟩
      by_cases ended : decoder.state = .ended
      · rw [(loop_over silent line ended).1, (loop_over silent line ended).2]
        exact ⟨fun index member => absurd member List.not_mem_nil, room.le⟩
      obtain ⟨near, moved, _⟩ := (decoder.read poll).receive_writes
      have same : (decoder.read poll).pos = decoder.pos := by cases poll <;> rfl
      have here : ∀ index ∈ (decoder.read poll).touched, -1 ≤ index ∧ index < max := by
        intro index member
        have bounds := near index member
        omega
      rw [readLoop_turn silent line ended, loopTouched_turn silent line ended]
      by_cases full : (decoder.read poll).receive.pos = max
      · rw [if_pos full, if_pos full]
        exact ⟨here, full.le⟩
      · rw [if_neg full, if_neg full]
        obtain ⟨later, final⟩ := ih (show (decoder.read poll).receive.pos < max by omega)
        refine ⟨fun index member => ?_, final⟩
        rcases List.mem_append.mp member with first | rest
        · exact here index first
        · exact later index rest

/-- The loop writes nothing but what it touches. -/
theorem loop_untouched {max : Nat} (line : List Poll) {decoder : Decoder} {index : Int}
    (apart : index ∉ loopTouched max line decoder) :
    (readLoop max line decoder).1.msg index = decoder.msg index := by
  induction line generalizing decoder with
  | nil => rfl
  | cons poll line ih =>
      by_cases silent : poll = .silent
      · rw [silent]
        rfl
      by_cases ended : decoder.state = .ended
      · rw [(loop_over silent line ended).1]
      have same : (decoder.read poll).msg = decoder.msg := by cases poll <;> rfl
      rw [loopTouched_turn silent line ended] at apart
      rw [readLoop_turn silent line ended, ← same]
      by_cases full : (decoder.read poll).receive.pos = max
      · rw [if_pos full] at apart
        rw [if_pos full]
        exact Decoder.receive_untouched apart
      · rw [if_neg full] at apart
        rw [if_neg full, ih fun member => apart (List.mem_append_right _ member)]
        exact Decoder.receive_untouched fun member => apart (List.mem_append_left _ member)

/-- The loop reads nothing but what it touches. -/
theorem loop_agree {max : Nat} (line : List Poll) {decoder : Decoder} {msg : Memory}
    (agree : ∀ index ∈ loopTouched max line decoder, msg index = decoder.msg index) :
    ∃ next, readLoop max line (decoder.withMsg msg) =
        ((readLoop max line decoder).1.withMsg next, (readLoop max line decoder).2) ∧
      loopTouched max line (decoder.withMsg msg) = loopTouched max line decoder ∧
      ∀ index, msg index = decoder.msg index →
        next index = (readLoop max line decoder).1.msg index := by
  induction line generalizing decoder msg with
  | nil => exact ⟨msg, rfl, rfl, fun index same => same⟩
  | cons poll line ih =>
      by_cases silent : poll = .silent
      · rw [silent]
        exact ⟨msg, rfl, rfl, fun index same => same⟩
      by_cases ended : decoder.state = .ended
      · obtain ⟨stops, nothing⟩ := loop_over silent line ended
        have finished : (decoder.withMsg msg).state = .ended := ended
        rw [(loop_over silent line finished).1, (loop_over silent line finished).2, stops, nothing]
        exact ⟨msg, rfl, rfl, fun index same => same⟩
      have running : (decoder.withMsg msg).state ≠ .ended := ended
      have read : (decoder.withMsg msg).read poll = (decoder.read poll).withMsg msg := by
        cases poll <;> rfl
      have same : (decoder.read poll).msg = decoder.msg := by cases poll <;> rfl
      rw [loopTouched_turn silent line ended] at agree ⊢
      rw [readLoop_turn silent line ended, readLoop_turn silent line running,
        loopTouched_turn silent line running, read]
      by_cases full : (decoder.read poll).receive.pos = max
      · rw [if_pos full] at agree
        obtain ⟨next, receive, touched, kept⟩ := Decoder.receive_agree (same ▸ agree)
        rw [same] at kept
        have stop : (((decoder.read poll).withMsg msg).receive).pos = max := by
          rw [receive]
          exact full
        rw [if_pos full, if_pos full, if_pos stop, if_pos stop, receive, touched]
        exact ⟨next, rfl, rfl, kept⟩
      · rw [if_neg full] at agree
        obtain ⟨next, receive, touched, kept⟩ := @Decoder.receive_agree (decoder.read poll) msg
          fun index member => by rw [same]; exact agree index (List.mem_append_left _ member)
        rw [same] at kept
        have go : ¬ (((decoder.read poll).withMsg msg).receive).pos = max := by
          rw [receive]
          exact full
        rw [if_neg full, if_neg full, if_neg go, if_neg go, receive, touched]
        obtain ⟨final, ran, rest, held⟩ := @ih (decoder.read poll).receive next
          fun index member => kept index (agree index (List.mem_append_right _ member))
        rw [ran, rest]
        exact ⟨final, rfl, rfl, fun index before => held index (kept index before)⟩

/-- **What is touched is all that counts.** A call on a buffer that agrees there returns the
same message, and leaves the rest of the buffer as it was. -/
theorem readStream_agree (line : List Poll) (rxchar : Byte) {first second : Memory} (max : Nat)
    (agree : ∀ index ∈ readStreamTouched line rxchar first max, second index = first index) :
    (readStream line rxchar second max).message = (readStream line rxchar first max).message ∧
      ∀ index, index ∉ readStreamTouched line rxchar first max →
        (readStream line rxchar second max).msg index = second index := by
  obtain ⟨next, ran, touched, kept⟩ := @loop_agree max line (.start rxchar first) second
    fun index member => agree index (List.mem_append_left _ member)
  have restarted : (Decoder.start rxchar first).withMsg second = .start rxchar second := rfl
  rw [restarted] at ran touched
  constructor
  · generalize reached : (readLoop max line (.start rxchar first)).1 = decoder at kept
    have same : ∀ index : Nat, index < decoder.pos → next index = decoder.msg index := by
      intro index small
      apply kept
      apply agree
      apply List.mem_append_right
      rw [reached]
      exact List.mem_map.mpr ⟨index, List.mem_range.mpr small, rfl⟩
    have bytes (len : Nat) (small : len ≤ decoder.pos) :
        next.bytes len = decoder.msg.bytes len := by
      apply List.map_congr_left
      intro index member
      exact same index (Nat.lt_of_lt_of_le (List.mem_range.mp member) small)
    have sized : (decoder.withMsg next).ret = decoder.ret := by
      change (if 0 < decoder.pos then
          if calcCrc (next.bytes (decoder.pos - 1)) ≠ next (decoder.pos - 1) then 0
          else decoder.pos - 1
        else 0) = decoder.ret
      unfold Decoder.ret
      by_cases some : 0 < decoder.pos
      · have last : (decoder.pos : Int) - 1 = (decoder.pos - 1 : Nat) := by omega
        rw [bytes _ (Nat.sub_le _ _), last, same _ (by omega)]
      · rw [if_neg some, if_neg some]
    rw [message_readLoop, message_readLoop, ran, reached, Decoder.message, Decoder.message, sized]
    exact bytes decoder.ret decoder.ret_le
  · intro index apart
    have outside : index ∉ loopTouched max line (.start rxchar second) := by
      rw [touched]
      exact fun member => apart (List.mem_append_left _ member)
    exact loop_untouched line outside

/-- The first byte behind the first `STX` that is not another `STX`. -/
def firstInFrame (line : List Byte) : Option Byte :=
  ((line.dropWhile (· != STX)).dropWhile (· == STX)).head?

/-- Once the frame has ended nothing is touched any more. -/
theorem loopTouched_ended (max : Nat) (line : List Byte) {decoder : Decoder}
    (ended : decoder.state = .ended) : loopTouched max (line.map .byte) decoder = [] := by
  cases line with
  | nil => rfl
  | cons byte line => exact (loop_over Poll.noConfusion _ ended).2

namespace Decoder

variable {decoder : Decoder}

/-- A terminator at the start of a frame ends it. -/
theorem receive_empty (started : decoder.state = .started) (start : decoder.pos = 0) :
    (decoder.read (.byte ETX)).receive = { decoder with rxchar := ETX, state := .ended } ∧
      (decoder.read (.byte ETX)).touched = [] := by
  unfold receive touched read
  simp only [started, start]
  exact ⟨rfl, rfl⟩

/-- For any other byte the one before the buffer is looked at. -/
theorem front_mem_touched (started : decoder.state = .started) (start : decoder.pos = 0)
    {byte : Byte} (stx : byte ≠ STX) (etx : byte ≠ ETX) :
    -1 ∈ (decoder.read (.byte byte)).touched := by
  unfold touched read
  simp only [stx, etx, started, start, ↓reduceIte]
  split
  · exact List.mem_cons_self
  · exact List.mem_cons_self

end Decoder

/-- At the start of a frame the byte before the buffer is touched unless the frame is
empty. -/
theorem front_touched_started {max : Nat} (room : max ≠ 0) (line : List Byte) {decoder : Decoder}
    (started : decoder.state = .started) (start : decoder.pos = 0) :
    -1 ∈ loopTouched max (line.map .byte) decoder ↔
      ∃ byte ∈ (line.dropWhile (· == STX)).head?, byte ≠ ETX := by
  induction line generalizing decoder with
  | nil =>
      constructor
      · exact fun member => absurd member List.not_mem_nil
      · rintro ⟨byte, member, _⟩
        exact nomatch member
  | cons byte line ih =>
      have heard : Poll.byte byte ≠ .silent := Poll.noConfusion
      have running : decoder.state ≠ .ended := by
        rw [started]
        exact StreamState.noConfusion
      rw [List.map_cons, loopTouched_turn heard _ running]
      by_cases stx : byte = STX
      · have again : (decoder.read (.byte STX)).receive =
            { decoder with rxchar := STX, state := .started, pos := 0 } := rfl
        rw [stx, List.dropWhile_cons_of_pos (by decide), again, if_neg room.symm]
        exact ih rfl rfl
      rw [List.dropWhile_cons_of_neg (by rwa [beq_iff_eq]), List.head?_cons]
      by_cases etx : byte = ETX
      · obtain ⟨closed, nothing⟩ := Decoder.receive_empty started start
        rw [etx, closed, nothing, loopTouched_ended max line rfl]
        constructor
        · intro member
          split at member <;> exact absurd member List.not_mem_nil
        · rintro ⟨other, member, apart⟩
          exact absurd (Option.some.inj member).symm apart
      · have touched := Decoder.front_mem_touched started start stx etx
        refine ⟨fun _ => ⟨byte, rfl, etx⟩, fun _ => ?_⟩
        split
        · exact touched
        · exact List.mem_append_left _ touched

/-- The byte before the buffer is touched when a frame begins that is not empty. -/
theorem front_touched {max : Nat} (room : max ≠ 0) (line : List Byte) {decoder : Decoder}
    (waiting : decoder.state = .notStarted) (start : decoder.pos = 0) :
    -1 ∈ loopTouched max (line.map .byte) decoder ↔
      ∃ byte ∈ firstInFrame line, byte ≠ ETX := by
  unfold firstInFrame
  induction line generalizing decoder with
  | nil =>
      constructor
      · exact fun member => absurd member List.not_mem_nil
      · rintro ⟨byte, member, _⟩
        exact nomatch member
  | cons byte line ih =>
      have heard : Poll.byte byte ≠ .silent := Poll.noConfusion
      have running : decoder.state ≠ .ended := by
        rw [waiting]
        exact StreamState.noConfusion
      rw [List.map_cons, loopTouched_turn heard _ running]
      by_cases stx : byte = STX
      · have opened : (decoder.read (.byte STX)).receive =
            { decoder with rxchar := STX, state := .started, pos := 0 } := rfl
        rw [stx, List.dropWhile_cons_of_neg (by decide),
          List.dropWhile_cons_of_pos (by decide), opened, if_neg room.symm]
        exact front_touched_started room line rfl rfl
      · have idle : (decoder.read (.byte byte)).receive = { decoder with rxchar := byte } := by
          unfold Decoder.receive Decoder.read
          simp only [stx, waiting, ↓reduceIte, reduceCtorEq, ite_self]
        have nothing : (decoder.read (.byte byte)).touched = [] := by
          unfold Decoder.touched Decoder.read
          simp only [stx, waiting, ↓reduceIte, reduceCtorEq, ite_self]
        rw [List.dropWhile_cons_of_pos (by rwa [bne_iff_ne]), idle, nothing,
          if_neg (show decoder.pos ≠ max by rw [start]; exact room.symm), List.nil_append]
        exact ih waiting start

/-- **Bounds of the buffer.** A call never goes beyond the end of the buffer, and before it
at most by one; it stays inside exactly when no byte comes behind the first `STX` other than
more of them, or the first that comes is a terminator. -/
theorem readStream_bounds_iff (line : List Byte) (rxchar : Byte) (msg : Memory) {max : Nat}
    (large : 20 ≤ max) :
    (∀ index ∈ readStreamTouched (line.map .byte) rxchar msg max, -1 ≤ index ∧ index < max) ∧
      ((∀ index ∈ readStreamTouched (line.map .byte) rxchar msg max, 0 ≤ index ∧ index < max) ↔
        ∀ byte ∈ firstInFrame line, byte = ETX) := by
  have room : max ≠ 0 := by omega
  obtain ⟨touched, filled⟩ := @loop_bounds max (line.map .byte) (.start rxchar msg)
    (Nat.pos_of_ne_zero room)
  have front := @front_touched max room line (.start rxchar msg) rfl rfl
  have decoded : ∀ index ∈
      (List.range (readLoop max (line.map .byte) (.start rxchar msg)).1.pos).map
        fun index : Nat => (index : Int),
      0 ≤ index ∧ index < max := by
    intro index member
    obtain ⟨place, small, rfl⟩ := List.mem_map.mp member
    have below := List.mem_range.mp small
    omega
  have bounds : ∀ index ∈ readStreamTouched (line.map .byte) rxchar msg max,
      -1 ≤ index ∧ index < max := by
    intro index member
    rcases List.mem_append.mp member with first | final
    · exact touched index first
    · have inside := decoded index final
      omega
  refine ⟨bounds, ?_, ?_⟩
  · intro inside byte first
    by_contra other
    have member : -1 ∈ readStreamTouched (line.map .byte) rxchar msg max :=
      List.mem_append_left _ (front.mpr ⟨byte, first, other⟩)
    exact absurd (inside (-1) member).1 (by decide)
  · intro empty index member
    have near := bounds index member
    refine ⟨?_, near.2⟩
    rcases List.mem_append.mp member with first | final
    · have apart : index ≠ -1 := by
        rintro rfl
        obtain ⟨byte, member, other⟩ := front.mp first
        exact other (empty byte member)
      omega
    · exact (decoded index final).1

/-- An empty frame behind noise. -/
theorem readStream_bounds_empty :
    (∀ index ∈ readStreamTouched ([0x05, STX, STX, ETX, 0x01].map .byte) 0 (fun _ => 0) 56,
        -1 ≤ index ∧ index < ((56 : Nat) : Int)) ∧
      ((∀ index ∈ readStreamTouched ([0x05, STX, STX, ETX, 0x01].map .byte) 0 (fun _ => 0) 56,
          0 ≤ index ∧ index < ((56 : Nat) : Int)) ↔
        ∀ byte ∈ firstInFrame [0x05, STX, STX, ETX, 0x01], byte = ETX) :=
  readStream_bounds_iff _ _ _ (by decide)

/-- The first byte of a frame makes the escape test read the byte before the buffer. -/
theorem front_read_in_frame :
    ¬ ∀ (line : List Byte) (rxchar : Byte) (msg : Memory) (max : Nat), 20 ≤ max →
      ∀ index ∈ readStreamTouched (line.map .byte) rxchar msg max, 0 ≤ index ∧ index < max := by
  intro inside
  have bounds := inside [STX, 0x01] 0 (fun _ => 0) 20 (by decide) (-1) (by decide)
  exact absurd bounds.1 (by decide)

end TsBat3

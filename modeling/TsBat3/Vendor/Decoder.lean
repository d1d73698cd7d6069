import TsBat3.Foundation.Deframing
import TsBat3.Vendor.Packet

/-! # The vendor's packet reader as a reader of frames

The length of the packet that `filePacketGet` is filling says where a reader with room for 500 bytes
is. What it delivers therefore stands in a frame of the line (`TsBat3.packet_in_frame`). It never
writes beyond the 500th byte, but it stays in a shorter buffer only as long as the frames do
(`TsBat3.packet_fits_iff`).
-/

namespace TsBat3

/-- The frames of the serial line. -/
def lineFrames : Delimited Byte where
  toStuffing := lineCode
  start := STX
  stop := ETX
  reserved_start := by decide
  reserved_stop := by decide
  start_ne_esc := by decide
  stop_ne_esc := by decide
  stop_ne_start := by decide

/-- What the length of a packet of 500 bytes says too. -/
def PACKET_ROOM : Nat := 500

/-- The reader that `ByteArray_PacketGet` is. -/
def packetReader : Machine (Phase Byte) Byte (Option (List Byte)) :=
  lineFrames.reader PACKET_ROOM

/-- A packet that says where a reader is. -/
inductive Encodes (fr : ByteArrayRef) : Phase Byte → Prop
  | outside : fr.len = 0 → Encodes fr .outside
  | inside {cells : List Byte} : Holding fr cells → cells.length < PACKET_ROOM →
      Encodes fr (.inside cells false)
  | escaped {cells : List Byte} {held : ByteArrayRef} : Holding held cells →
      cells.length < PACKET_ROOM → fr = { held with len := -(cells.length : Int) - 1000 } →
      Encodes fr (.inside cells true)

variable {fr : ByteArrayRef} {phase : Phase Byte}

theorem Encodes.len_le (encodes : Encodes fr phase) : fr.len ≤ 0 := by
  cases encodes with
  | outside waiting => exact le_of_eq waiting
  | inside holding _ => exact holding.len_le
  | escaped _ _ same =>
      rw [same]
      dsimp only
      omega

/-- With 500 bytes the packet has the length of one that is empty. -/
theorem Holding.encodes {cells : List Byte} {b : Byte} (holding : Holding fr (cells ++ [b]))
    (small : cells.length < PACKET_ROOM) :
    Encodes fr (.inside (hold PACKET_ROOM cells b) false) := by
  have longer : (cells ++ [b]).length = cells.length + 1 := List.length_append
  unfold hold
  by_cases full : cells.length + 1 = PACKET_ROOM
  · have wrapped : fr.len = -500 := by
      rw [holding.len, longer, full]
      rfl
    rw [if_pos full]
    exact .inside ⟨wrapped, rfl⟩ (by decide)
  · rw [if_neg full]
    exact .inside holding (by omega)

/-- The empty packet of a frame that has begun. -/
theorem opened_encodes (fr : ByteArrayRef) : Encodes { fr with len := -500 } (.inside [] false) :=
  .inside ⟨rfl, rfl⟩ (by decide)

/-- Inside a frame `STX` is a framing error, unless nothing has been stored. -/
theorem packetGet_STX {cells : List Byte} (holding : Holding fr cells)
    (small : cells.length < PACKET_ROOM) :
    ByteArray_PacketGet fr STX = if cells = [] then fr else { fr with len := 0 } := by
  have state := holding.len
  have bound : cells.length < 500 := small
  unfold ByteArray_PacketGet
  by_cases empty : cells = []
  · rw [empty, List.length_nil, if_pos rfl] at state
    rw [if_pos empty, if_neg (by omega), if_pos state]
    rfl
  · have filled : cells.length ≠ 0 := fun zero => empty (List.length_eq_zero_iff.mp zero)
    rw [if_neg filled] at state
    rw [if_neg empty, if_neg (by omega), if_neg (by omega), if_pos (by omega)]
    rfl

/-- A frame that is empty is not delivered. -/
theorem packetGet_empty (holding : Holding fr []) :
    ByteArray_PacketGet fr ETX = { fr with len := 0 } := by
  have state : fr.len = -500 := holding.len
  unfold ByteArray_PacketGet
  rw [if_neg (by omega), if_pos state]
  rfl

/-- **What a byte does to a packet** is what it does to the reader. -/
theorem packetGet_takes (encodes : Encodes fr phase) {b : Byte} {next : Phase Byte}
    {output : Option (List Byte)} (taken : lineFrames.Takes PACKET_ROOM phase b next output) :
    (output = none → Encodes (ByteArray_PacketGet fr b) next) ∧
      ∀ cells, output = some cells → (ByteArray_PacketGet fr b).len = cells.length ∧
        0 < cells.length ∧ cells.length < PACKET_ROOM ∧
          (ByteArray_PacketGet fr b).bytes = cells := by
  cases taken with
  | skips other =>
      obtain ⟨waiting⟩ := encodes
      have same : ByteArray_PacketGet fr b = fr := by
        have apart : b ≠ 0x7E := other
        simp only [ByteArray_PacketGet, waiting, apart, ↓reduceIte, Int.reduceNeg, Int.reduceLE,
          Int.reduceEq, lt_self_iff_false]
      rw [same]
      exact ⟨fun _ => .outside waiting, fun _ made => absurd made.symm (Option.some_ne_none _)⟩
  | opens =>
      obtain ⟨waiting⟩ := encodes
      have opened : ByteArray_PacketGet fr STX = { fr with len := -500 } := by
        simp only [ByteArray_PacketGet, waiting, Int.reduceNeg, Int.reduceLE, Int.reduceEq,
          lt_self_iff_false, ↓reduceIte]
        rfl
      refine ⟨fun _ => ?_, fun _ made => absurd made.symm (Option.some_ne_none _)⟩
      change Encodes (ByteArray_PacketGet fr STX) _
      rw [opened]
      exact opened_encodes fr
  | escapes cells =>
      obtain - | ⟨holding, small⟩ := encodes
      exact ⟨fun _ => .escaped holding small (holding.escape small),
        fun _ made => absurd made.symm (Option.some_ne_none _)⟩
  | flips cells symbol =>
      obtain - | - | ⟨holding, small, rfl⟩ := encodes
      exact ⟨fun _ => (holding.escaped b).encodes small,
        fun _ made => absurd made.symm (Option.some_ne_none _)⟩
  | reopens =>
      obtain - | ⟨holding, small⟩ := encodes
      refine ⟨fun _ => ?_, fun _ made => absurd made.symm (Option.some_ne_none _)⟩
      change Encodes (ByteArray_PacketGet fr STX) _
      rw [packetGet_STX holding small, if_pos rfl]
      exact .inside holding small
  | breaks filled =>
      obtain - | ⟨holding, small⟩ := encodes
      refine ⟨fun _ => ?_, fun _ made => absurd made.symm (Option.some_ne_none _)⟩
      change Encodes (ByteArray_PacketGet fr STX) _
      rw [packetGet_STX holding small, if_neg filled]
      exact .outside rfl
  | closes =>
      obtain - | ⟨holding, small⟩ := encodes
      refine ⟨fun _ => ?_, fun _ made => absurd made.symm (Option.some_ne_none _)⟩
      change Encodes (ByteArray_PacketGet fr ETX) _
      rw [packetGet_empty holding]
      exact .outside rfl
  | @delivers cells filled =>
      obtain - | ⟨holding, small⟩ := encodes
      have complete : ByteArray_PacketGet fr ETX = { fr with len := cells.length } :=
        holding.terminator filled small
      refine ⟨fun made => absurd made (Option.some_ne_none _), fun delivered same => ?_⟩
      rw [← Option.some.inj same]
      change (ByteArray_PacketGet fr ETX).len = _ ∧ _ ∧ _ ∧ (ByteArray_PacketGet fr ETX).bytes = _
      rw [complete]
      exact ⟨rfl, List.length_pos_iff.mpr filled, small, holding.arr⟩
  | holds cells escape begins ends =>
      obtain - | ⟨holding, small⟩ := encodes
      exact ⟨fun _ => (holding.plain small escape begins ends).encodes small,
        fun _ made => absurd made.symm (Option.some_ne_none _)⟩

/-! ### Whole lines -/

/-- The bytes of a line up to the first silence. -/
def heard : List Poll → List Byte
  | [] => []
  | .silent :: _ => []
  | .eof :: line => heard line
  | .byte ch :: line => ch :: heard line

/-- The sum of a packet is right. -/
def Sealed (cells : List Byte) : Prop := cells.sum = 0xFF

instance : DecidablePred Sealed := fun cells => inferInstanceAs (Decidable (cells.sum = 0xFF))

/-- A packet with a wrong sum is dropped. -/
theorem dropped_encodes (fr : ByteArrayRef) : Encodes { fr with len := 0 } .outside := .outside rfl

/-- **What the loop returns** is the first packet with the right sum that the reader delivers, and
what follows it stays on the line. -/
theorem packetLoop_some {line rest : List Poll} {pkt : ByteArrayRef} (encodes : Encodes fr phase)
    (got : packetLoop line fr = (some pkt, rest)) :
    ∃ taken past ch, line = taken ++ rest ∧ heard taken = past ++ [ch] ∧
      (packetReader.step (packetReader.run phase past) ch).2 = some pkt.bytes ∧
      Sealed pkt.bytes ∧
      ∀ output ∈ packetReader.outputs phase past, ∀ cells, output = some cells →
        ¬ Sealed cells := by
  induction line generalizing fr phase with
  | nil => nomatch got
  | cons poll line ih =>
      cases poll with
      | silent => nomatch got
      | eof =>
          obtain ⟨taken, past, ch, split, bytes, rest⟩ := ih encodes got
          exact ⟨.eof :: taken, past, ch, congrArg _ split, bytes, rest⟩
      | byte ch =>
          have step := packetGet_takes encodes (lineFrames.takes_step PACKET_ROOM phase ch)
          have goesOn {next : ByteArrayRef}
              (follows : Encodes next (packetReader.step phase ch).1)
              (unsealed : ∀ cells, (packetReader.step phase ch).2 = some cells → ¬ Sealed cells)
              (later : packetLoop line next = (some pkt, rest)) :
              ∃ taken past last, .byte ch :: line = taken ++ rest ∧ heard taken = past ++ [last] ∧
                (packetReader.step (packetReader.run phase past) last).2 = some pkt.bytes ∧
                Sealed pkt.bytes ∧ ∀ output ∈ packetReader.outputs phase past,
                  ∀ cells, output = some cells → ¬ Sealed cells := by
            obtain ⟨taken, past, last, split, bytes, delivered, right, before⟩ := ih follows later
            refine ⟨.byte ch :: taken, ch :: past, last, congrArg _ split, congrArg _ bytes,
              delivered, right, fun output member => ?_⟩
            rcases List.mem_cons.mp member with rfl | follows
            · exact unsealed
            · exact before output follows
          cases output : (packetReader.step phase ch).2 with
          | none =>
              have follows := step.1 output
              rw [packetLoop_step follows.len_le] at got
              exact goesOn follows (fun cells made => nomatch output.symm.trans made) got
          | some cells =>
              obtain ⟨len, filled, -, bytes⟩ := step.2 cells output
              have complete : (ByteArray_PacketGet fr ch).len > 0 := by omega
              rw [packetLoop, if_pos complete, ofInt_checksum, bytes] at got
              by_cases right : cells.sum = 0xFF
              · rw [if_pos right] at got
                obtain ⟨packet, rfl⟩ := Prod.mk.inj got
                rw [← Option.some.inj packet, bytes]
                exact ⟨[.byte ch], [], ch, rfl, rfl, output, right,
                  fun output member => absurd member List.not_mem_nil⟩
              · rw [if_neg right] at got
                have outside : (packetReader.step phase ch).1 = .outside := by
                  obtain ⟨rfl, rfl, full⟩ := Delimited.delivers_held output
                  rfl
                have follows : Encodes { ByteArray_PacketGet fr ch with len := 0 }
                    (packetReader.step phase ch).1 := by
                  rw [outside]
                  exact dropped_encodes _
                refine goesOn follows (fun other made => ?_) got
                rw [← Option.some.inj (output.symm.trans made)]
                exact right

/-- **Only frames are delivered.** Whatever is on the line, a packet that `filePacketGet` returns
has the right sum and is what a frame says that ends where the rest of the line begins, but for the
multiple of 500 bytes that a longer frame begins with. -/
theorem packet_in_frame (line rest : List Poll) (fr pkt : ByteArrayRef)
    (got : filePacketGet line fr = (some pkt, rest)) :
    pkt.bytes ≠ [] ∧ pkt.bytes.sum = 0xFF ∧
      ∃ taken noise body message, line = taken ++ rest ∧
        heard taken = noise ++ STX :: (body ++ [ETX]) ∧ lineFrames.Reads body message ∧
        pkt.bytes = message.drop (500 * (message.length / 500)) := by
  obtain ⟨taken, past, ch, split, bytes, delivered, right, -⟩ :=
    packetLoop_some (dropped_encodes fr) got
  obtain ⟨noise, body, message, reads, same, filled, frame⟩ :=
    Delimited.delivers_frame (by decide) delivered
  exact ⟨filled, right, taken, noise, body, message, split, bytes.trans frame, reads, same⟩

/-- A frame with a wrong sum in front of one with the right sum. -/
theorem packet_in_frame_sample :
    let line := (0x41 :: STX :: 0x01 :: ETX :: writeStream [0x7E] ++ [0x13]).map Poll.byte
    ∃ (pkt : ByteArrayRef) (rest : List Poll), pkt.bytes ≠ [] ∧ pkt.bytes.sum = 0xFF ∧
      ∃ taken noise body message, line = taken ++ rest ∧
        heard taken = noise ++ STX :: (body ++ [ETX]) ∧ lineFrames.Reads body message ∧
        pkt.bytes = message.drop (500 * (message.length / 500)) :=
  ⟨_, _, packet_in_frame _ _ ⟨19, fun _ => 0⟩ _ rfl⟩

/-! ### Memory -/

/-- The element of the buffer that `ByteArray_PacketGet` writes, if any. -/
def packetTouched (fr : ByteArrayRef) (b : Byte) : List Int :=
  if fr.len ≤ -1000 then [-(fr.len + 1000)]
  else if fr.len = -500 then if b = 0x7D ∨ b = 0x7E ∨ b = 0x7F then [] else [0]
  else if fr.len < 0 then if b = 0x7D ∨ b = 0x7E ∨ b = 0x7F then [] else [-fr.len]
  else []

/-- The elements of the buffer that the loops of `filePacketGet` write, and read for the sum. -/
def packetLoopTouched : List Poll → ByteArrayRef → List Int
  | [], _ => []
  | .silent :: _, _ => []
  | .eof :: line, b => packetLoopTouched line b
  | .byte ch :: line, b =>
      let next := ByteArray_PacketGet b ch
      packetTouched b ch ++
        if next.len > 0 then
          (List.range next.len.toNat).map (fun index : Nat => (index : Int)) ++
            if BitVec.ofInt 8 (ByteArrayRef_Checksum next) = 0xFF then []
            else packetLoopTouched line { next with len := 0 }
        else packetLoopTouched line next

def filePacketGetTouched (line : List Poll) (fr : ByteArrayRef) : List Int :=
  packetLoopTouched line { fr with len := 0 }

/-- How many bytes a reader holds. -/
def load : Phase Byte → Nat
  | .outside => 0
  | .inside cells _ => cells.length

theorem Encodes.load_lt (encodes : Encodes fr phase) : load phase < PACKET_ROOM := by
  cases encodes with
  | outside _ => decide
  | inside _ small => exact small
  | escaped _ small _ => exact small

private theorem length_hold (cells : List Byte) (b : Byte) (small : cells.length < PACKET_ROOM) :
    (hold PACKET_ROOM cells b).length = (cells.length + 1) % PACKET_ROOM := by
  unfold hold
  split
  · rename_i full
    rw [full]
    rfl
  · rw [List.length_append, List.length_singleton, Nat.mod_eq_of_lt (by omega)]

/-- In a frame a byte is written behind the others, unless it is reserved. -/
theorem packetTouched_inside {cells : List Byte} (holding : Holding fr cells)
    (small : cells.length < PACKET_ROOM) (b : Byte) :
    packetTouched fr b =
      if b = 0x7D ∨ b = 0x7E ∨ b = 0x7F then [] else [(cells.length : Int)] := by
  have state := holding.len
  have bound : cells.length < 500 := small
  unfold packetTouched
  split at state
  · rename_i empty
    rw [if_neg (by omega), if_pos state, empty]
    rfl
  · rw [if_neg (by omega), if_neg (by omega), if_pos (by omega), state, neg_neg]

/-- **What a byte touches**: nothing, or the place behind the bytes that are held, and then there
is one byte more, or none after 500. -/
theorem packetTouched_takes (encodes : Encodes fr phase) {b : Byte} {next : Phase Byte}
    {output : Option (List Byte)} (taken : lineFrames.Takes PACKET_ROOM phase b next output) :
    (packetTouched fr b = [] ∧ load next ≤ load phase) ∨
      (packetTouched fr b = [(load phase : Int)] ∧
        load next = (load phase + 1) % PACKET_ROOM) := by
  have waits (waiting : fr.len = 0) (b : Byte) : packetTouched fr b = [] := by
    unfold packetTouched
    rw [if_neg (by omega), if_neg (by omega), if_neg (by omega)]
  cases taken with
  | skips other =>
      obtain ⟨waiting⟩ := encodes
      exact Or.inl ⟨waits waiting _, le_rfl⟩
  | opens =>
      obtain ⟨waiting⟩ := encodes
      exact Or.inl ⟨waits waiting _, le_rfl⟩
  | escapes cells =>
      obtain - | ⟨holding, small⟩ := encodes
      exact Or.inl ⟨packetTouched_inside holding small _, le_rfl⟩
  | flips cells symbol =>
      obtain - | - | ⟨holding, small, rfl⟩ := encodes
      refine Or.inr ⟨?_, length_hold _ _ small⟩
      unfold packetTouched
      dsimp only
      have place : -(-(cells.length : Int) - 1000 + 1000) = cells.length := by omega
      rw [if_pos (by omega), place]
      rfl
  | reopens =>
      obtain - | ⟨holding, small⟩ := encodes
      exact Or.inl ⟨packetTouched_inside holding small _, le_rfl⟩
  | breaks filled =>
      obtain - | ⟨holding, small⟩ := encodes
      exact Or.inl ⟨packetTouched_inside holding small _, Nat.zero_le _⟩
  | closes =>
      obtain - | ⟨holding, small⟩ := encodes
      exact Or.inl ⟨packetTouched_inside holding small _, le_rfl⟩
  | delivers filled =>
      obtain - | ⟨holding, small⟩ := encodes
      exact Or.inl ⟨packetTouched_inside holding small _, Nat.zero_le _⟩
  | holds cells escape begins ends =>
      obtain - | ⟨holding, small⟩ := encodes
      refine Or.inr ⟨?_, length_hold _ _ small⟩
      rw [packetTouched_inside holding small, if_neg]
      · rfl
      · rintro (same | same | same)
        · exact escape same
        · exact begins same
        · exact ends same

/-- A reader holds at most a number of bytes while it reads some. -/
def Fits (most : Nat) (phase : Phase Byte) (bytes : List Byte) : Prop :=
  ∀ past, past <+: bytes → load (packetReader.run phase past) ≤ most

theorem fits_nil (most : Nat) (phase : Phase Byte) : Fits most phase [] ↔ load phase ≤ most := by
  constructor
  · exact fun fits => fits [] (List.prefix_refl [])
  · intro small past inside
    rw [List.prefix_nil.mp inside]
    exact small

theorem fits_cons (most : Nat) (phase : Phase Byte) (ch : Byte) (bytes : List Byte) :
    Fits most phase (ch :: bytes) ↔
      load phase ≤ most ∧ Fits most (packetReader.step phase ch).1 bytes := by
  constructor
  · intro fits
    refine ⟨fits [] List.nil_prefix, fun past inside => ?_⟩
    exact fits (ch :: past) (List.cons_prefix_cons.mpr ⟨rfl, inside⟩)
  · rintro ⟨small, fits⟩ past inside
    rcases List.prefix_cons_iff.mp inside with rfl | ⟨later, rfl, follows⟩
    · exact small
    · exact fits later follows

/-- All elements of a list are in a buffer of a size. -/
def Within (size : Nat) (touched : List Int) : Prop :=
  ∀ index ∈ touched, 0 ≤ index ∧ index < size

private theorem within_append (size : Nat) (first second : List Int) :
    Within size (first ++ second) ↔ Within size first ∧ Within size second :=
  List.forall_mem_append

private theorem within_range {size count : Nat} (small : count ≤ size) :
    Within size ((List.range count).map fun index : Nat => (index : Int)) := by
  intro index member
  obtain ⟨place, inside, rfl⟩ := List.mem_map.mp member
  have bound := List.mem_range.mp inside
  omega

/-- A byte stays in a buffer when the reader has no more than fits it afterwards. -/
theorem packetTouched_within (encodes : Encodes fr phase) (b : Byte) :
    Within PACKET_ROOM (packetTouched fr b) ∧ ∀ size < 499, load phase ≤ size →
      (Within size (packetTouched fr b) ↔ load (packetReader.step phase b).1 ≤ size) := by
  have nothing (size : Nat) : Within size [] := fun index member => absurd member List.not_mem_nil
  rcases packetTouched_takes encodes (lineFrames.takes_step PACKET_ROOM phase b) with
    ⟨none, less⟩ | ⟨place, more⟩
  · rw [none]
    exact ⟨nothing _, fun size _ small => ⟨fun _ => less.trans small, fun _ => nothing size⟩⟩
  · have single (size : Nat) : Within size [(load phase : Int)] ↔ load phase < size := by
      constructor
      · intro within
        have inside := within _ (List.mem_singleton_self _)
        omega
      · intro fits index member
        rw [List.mem_singleton.mp member]
        omega
    rw [place]
    refine ⟨(single _).mpr encodes.load_lt, fun size short small => ?_⟩
    have stored : load (packetReader.step phase b).1 = load phase + 1 :=
      more.trans (Nat.mod_eq_of_lt (show load phase + 1 < 500 by omega))
    rw [single, stored]
    exact Nat.lt_iff_add_one_le

/-- The elements that are touched from some phase on are those of what the reader holds. -/
structure Touching (phase : Phase Byte) (touched : List Int) (bytes : List Byte) : Prop where
  bounded : Within PACKET_ROOM touched
  fits : ∀ size < 499, load phase ≤ size → (Within size touched ↔ Fits size phase bytes)

theorem Touching.nil (phase : Phase Byte) : Touching phase [] [] where
  bounded _ member := absurd member List.not_mem_nil
  fits size _ small :=
    ⟨fun _ => (fits_nil size phase).mpr small, fun _ _ member => absurd member List.not_mem_nil⟩

/-- A byte, and what is read again of the bytes that were held, in front of what follows. -/
theorem Touching.cons (encodes : Encodes fr phase) (b : Byte) {count : Nat}
    (again : count ≤ load phase) {touched : List Int} {bytes : List Byte}
    (later : Touching (packetReader.step phase b).1 touched bytes) :
    Touching phase
      (packetTouched fr b ++ ((List.range count).map (fun index : Nat => (index : Int)) ++ touched))
      (b :: bytes) := by
  obtain ⟨bounded, fits⟩ := packetTouched_within encodes b
  constructor
  · rw [within_append, within_append]
    exact ⟨bounded, within_range (again.trans (Nat.le_of_lt encodes.load_lt)), later.bounded⟩
  · intro size short small
    rw [within_append, within_append, fits size short small, fits_cons]
    constructor
    · rintro ⟨enough, -, within⟩
      exact ⟨small, (later.fits size short enough).mp within⟩
    · rintro ⟨-, held⟩
      have enough : load (packetReader.step phase b).1 ≤ size := held [] List.nil_prefix
      exact ⟨enough, within_range (again.trans small), (later.fits size short enough).mpr held⟩

/-- What the loop touches, by what the reader holds. -/
theorem packetLoop_touching (line : List Poll) (encodes : Encodes fr phase) :
    ∃ taken, line = taken ++ (packetLoop line fr).2 ∧
      Touching phase (packetLoopTouched line fr) (heard taken) := by
  induction line generalizing fr phase with
  | nil => exact ⟨[], rfl, .nil phase⟩
  | cons poll line ih =>
      cases poll with
      | silent => exact ⟨[.silent], rfl, .nil phase⟩
      | eof =>
          obtain ⟨taken, split, touching⟩ := ih encodes
          exact ⟨.eof :: taken, congrArg _ split, touching⟩
      | byte ch =>
          have step := packetGet_takes encodes (lineFrames.takes_step PACKET_ROOM phase ch)
          cases output : (packetReader.step phase ch).2 with
          | none =>
              have follows := step.1 output
              obtain ⟨taken, split, touching⟩ := ih follows
              have goesOn : ¬ (ByteArray_PacketGet fr ch).len > 0 := not_lt.mpr follows.len_le
              refine ⟨.byte ch :: taken, ?_, ?_⟩
              · rw [packetLoop_step follows.len_le]
                exact congrArg _ split
              · rw [packetLoopTouched, if_neg goesOn]
                exact Touching.cons encodes ch (Nat.zero_le _) touching
          | some cells =>
              obtain ⟨len, filled, -, bytes⟩ := step.2 cells output
              obtain ⟨rfl, rfl, -⟩ := Delimited.delivers_held output
              have complete : (ByteArray_PacketGet fr lineFrames.stop).len > 0 := by omega
              have count : (ByteArray_PacketGet fr lineFrames.stop).len.toNat = cells.length := by
                omega
              rw [packetLoop, packetLoopTouched, if_pos complete, if_pos complete, count]
              split
              · exact ⟨[.byte lineFrames.stop], rfl,
                  Touching.cons encodes lineFrames.stop le_rfl (.nil _)⟩
              · obtain ⟨taken, split, touching⟩ :=
                  ih (dropped_encodes (ByteArray_PacketGet fr lineFrames.stop))
                exact ⟨.byte lineFrames.stop :: taken, congrArg _ split,
                  Touching.cons encodes lineFrames.stop le_rfl touching⟩

/-- **How much of the buffer is used.** Whatever is on the line, `filePacketGet` touches nothing
outside the first 500 elements. It stays in a shorter buffer exactly when the reader never holds
more bytes of a frame than the buffer has room for. -/
theorem packet_fits_iff (line : List Poll) (fr : ByteArrayRef) :
    (∀ index ∈ filePacketGetTouched line fr, 0 ≤ index ∧ index < 500) ∧
      ∃ taken, line = taken ++ (filePacketGet line fr).2 ∧
        ∀ size : Nat, size < 499 →
          ((∀ index ∈ filePacketGetTouched line fr, 0 ≤ index ∧ index < size) ↔
            ∀ past, past <+: heard taken → load (packetReader.run .outside past) ≤ size) := by
  obtain ⟨taken, split, touching⟩ := packetLoop_touching line (dropped_encodes fr)
  exact ⟨touching.bounded, taken, split, fun size short =>
    touching.fits size short (Nat.zero_le size)⟩

end TsBat3

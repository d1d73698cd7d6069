import TsBat3.Vendor.Serial

/-! # Unframing in place

`serialUnframe` undoes the escapes of a frame in the memory that holds it. It writes behind what it
reads, so that a frame is turned into the packet that it is sent for
(`TsBat3.serialUnframe_frame`).
-/

namespace TsBat3

/-- The loop of `serialUnframe`, which reads at `i` and writes at `j`. -/
def unframeLoop (last i j : Nat) (off : Int) (arr : Memory) : Int × Memory :=
  if i < last then
    if arr i = 0x7D then
      let b := arr (i + 1) ^^^ 0x20
      unframeLoop last (i + 2) (j + 1) (off + 1) (Function.update arr j b)
    else unframeLoop last (i + 1) (j + 1) off (Function.update arr j (arr i))
  else (off, arr)
termination_by last - i

def serialUnframe (src : ByteArrayRef) : Option ByteArrayRef :=
  if src.len ≤ 0 ∨ src.arr 0 ≠ 0x7E ∨ src.arr (src.len - 1) ≠ 0x7F then none
  else
    let (off, arr) := unframeLoop (src.len - 1).toNat 1 0 2 src.arr
    some { len := src.len - off, arr }

/-- The bytes stand in memory from a place on. -/
def Stands (arr : Memory) : Nat → List Byte → Prop
  | _, [] => True
  | place, byte :: bytes => arr place = byte ∧ Stands arr (place + 1) bytes

/-- A write in front of bytes leaves them as they are. -/
theorem Stands.update {arr : Memory} {place : Nat} {bytes : List Byte}
    (stands : Stands arr place bytes) {index : Nat} (before : index < place) (b : Byte) :
    Stands (Function.update arr index b) place bytes := by
  induction bytes generalizing place with
  | nil => trivial
  | cons byte bytes ih =>
      refine ⟨?_, ih stands.2 (Nat.lt_succ_of_lt before)⟩
      rw [Function.update_of_ne (by omega)]
      exact stands.1

private theorem stands_append {arr : Memory} {place : Nat} {first second : List Byte} :
    Stands arr place (first ++ second) ↔
      Stands arr place first ∧ Stands arr (place + first.length) second := by
  induction first generalizing place with
  | nil => exact ⟨fun stands => ⟨trivial, stands⟩, fun stands => stands.2⟩
  | cons byte first ih =>
      rw [List.cons_append, List.length_cons, Stands, Stands, ih, and_assoc, Nat.add_assoc,
        Nat.add_comm 1]

private theorem stands_bytes (arr : Memory) (len : Nat) : Stands arr 0 (arr.bytes len) := by
  induction len with
  | zero => trivial
  | succ len ih =>
      rw [Memory.bytes_succ, stands_append, Memory.length_bytes, Nat.zero_add]
      exact ⟨ih, rfl, trivial⟩

/-- **The loop** stores what the rest of the frame stands for behind what it has stored, and counts
the escapes. -/
theorem unframeLoop_spec {body message : List Byte} (reads : lineCode.unstuff body = some message) :
    ∀ (arr : Memory) (i j : Nat) (off : Int), j < i → Stands arr i body →
      ∃ next, unframeLoop (i + body.length) i j off arr =
          (off + (body.length - message.length), next) ∧
        next.bytes (j + message.length) = arr.bytes j ++ message := by
  refine lineCode.unit_induction ?nil ?pair ?plain reads
  case nil =>
    intro arr i j off _ _
    refine ⟨arr, ?_, (List.append_nil _).symm⟩
    rw [List.length_nil, Nat.add_zero, unframeLoop, if_neg (Nat.lt_irrefl i), sub_self, add_zero]
  case pair =>
    intro symbol body message ih arr i j off behind stands
    obtain ⟨first, second, rest⟩ := stands
    have escape : arr i = 0x7D := first
    have same : arr ((i : Int) + 1) = symbol := by
      rw [← second]
      rfl
    have inside : i < i + (lineCode.esc :: symbol :: body).length :=
      Nat.lt_add_of_pos_right (Nat.succ_pos _)
    have last : i + (lineCode.esc :: symbol :: body).length = i + 2 + body.length := by
      simp only [List.length_cons]
      omega
    obtain ⟨next, loop, stored⟩ := ih (Function.update arr j (symbol ^^^ escBit)) (i + 2) (j + 1)
      (off + 1) (by omega) (rest.update (by omega) _)
    refine ⟨next, ?_, ?_⟩
    · have count : off + 1 + ((body.length : Int) - message.length) =
          off + (((lineCode.esc :: symbol :: body).length : Int) -
            (lineCode.flip symbol :: message).length) := by
        simp only [List.length_cons]
        omega
      rw [unframeLoop, if_pos inside, if_pos escape, last, same, ← count]
      exact loop
    · rw [List.length_cons, ← Nat.add_assoc, Nat.add_right_comm, stored, Memory.bytes_push,
        List.append_assoc]
      rfl
  case plain =>
    intro symbol body message other ih arr i j off behind stands
    obtain ⟨here, rest⟩ := stands
    have inside : i < i + (symbol :: body).length := Nat.lt_add_of_pos_right (Nat.succ_pos _)
    have last : i + (symbol :: body).length = i + 1 + body.length := by
      rw [List.length_cons]
      omega
    have plain : ¬ arr i = 0x7D := by
      rw [here]
      exact other
    obtain ⟨next, loop, stored⟩ := ih (Function.update arr j symbol) (i + 1) (j + 1) off
      (by omega) (rest.update (by omega) _)
    refine ⟨next, ?_, ?_⟩
    · have count : off + ((body.length : Int) - message.length) =
          off + (((symbol :: body).length : Int) - (symbol :: message).length) := by
        simp only [List.length_cons]
        omega
      rw [unframeLoop, if_pos inside, if_neg plain, last, here, ← count]
      exact loop
    · rw [List.length_cons, ← Nat.add_assoc, Nat.add_right_comm, stored, Memory.bytes_push,
        List.append_assoc]
      rfl

/-- What stands between the delimiters of a frame is undone in place. -/
theorem serialUnframe_body {src : ByteArrayRef} {body message : List Byte}
    (frame : src.bytes = STX :: (body ++ [ETX])) (reads : lineCode.unstuff body = some message) :
    ∃ pkt, serialUnframe src = some pkt ∧ pkt.bytes = message := by
  have sized : src.len.toNat = body.length + 2 := by
    have count := congrArg List.length frame
    rw [ByteArrayRef.bytes, Memory.length_bytes, List.length_cons, List.length_append,
      List.length_singleton] at count
    exact count
  have stands := stands_bytes src.arr src.len.toNat
  change Stands src.arr 0 src.bytes at stands
  rw [frame] at stands
  obtain ⟨front, rest⟩ := stands
  obtain ⟨inner, back, -⟩ := stands_append.mp rest
  obtain ⟨next, loop, stored⟩ := unframeLoop_spec reads src.arr 1 0 2 Nat.zero_lt_one inner
  have place : src.len - 1 = ((0 + 1 + body.length : Nat) : Int) := by omega
  have last : (src.len - 1).toNat = 1 + body.length := by omega
  have framed : ¬ (src.len ≤ 0 ∨ src.arr 0 ≠ 0x7E ∨ src.arr (src.len - 1) ≠ 0x7F) := by
    rintro (short | begins | ends)
    · omega
    · exact begins front
    · rw [place] at ends
      exact ends back
  refine ⟨⟨src.len - (2 + (body.length - message.length)), next⟩, ?_, ?_⟩
  · unfold serialUnframe
    rw [if_neg framed, last, loop]
  · have count : (src.len - (2 + ((body.length : Int) - message.length))).toNat =
        0 + message.length := by omega
    unfold ByteArrayRef.bytes
    dsimp only
    rw [count, stored]
    rfl

/-- **Unframing undoes framing.** A packet is read back from the frame that `serialFrame` makes of
it, whatever the memory held that the frame is made in. -/
theorem serialUnframe_frame (src dst : ByteArrayRef) (sized : 0 ≤ src.len) :
    ∃ pkt, serialUnframe ⟨src.len + serialFrameOverhead src, (serialFrame src dst).arr⟩ = some pkt ∧
      pkt.bytes = src.bytes := by
  have written := written_serialFrame src dst
  have filled := Writer.length_written (serialFrame src dst)
  have frame : ByteArrayRef.bytes ⟨src.len + serialFrameOverhead src, (serialFrame src dst).arr⟩ =
      STX :: (lineCode.stuff src.bytes ++ [ETX]) := by
    rw [← written, ByteArrayRef.bytes, ← length_frame sized, ← written, filled]
    rfl
  exact serialUnframe_body frame (lineCode.unstuff_stuff src.bytes)

/-- A packet of reserved bytes. -/
theorem serialUnframe_frame_reserved :
    let src : ByteArrayRef := ⟨3, fun index => if index = 0 then 0x7E else 0x7F⟩
    ∃ pkt, serialUnframe ⟨src.len + serialFrameOverhead src,
        (serialFrame src ⟨8, fun _ => 0x55⟩).arr⟩ = some pkt ∧ pkt.bytes = src.bytes :=
  serialUnframe_frame _ ⟨8, fun _ => 0x55⟩ (by decide)

end TsBat3

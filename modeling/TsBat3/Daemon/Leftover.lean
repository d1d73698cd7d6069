import TsBat3.Daemon.Round
import TsBat3.Stream.WellFormed

/-! # What a request shows of the buffer it is built in

`doRound` builds its request in a buffer that it does not initialise, by assignments to the
members of a struct. Of the 96 bits of a request these assign all but the four bits of the
`outputs` word that no bit-field names: those are sent as they were found
(`TsBat3.request_same_iff`).
-/

namespace TsBat3

/-- The bits of a buffer that no member of a request names. -/
def unnamedBits (msg : List Byte) : BitVec 4 := (byteAt msg 5).extractLsb' 4 4

/-- The request that `encodemsg` leaves in the buffer. -/
def requestBytes (msg : List Byte) (size : Nat) (mybat3 : Bat3) : List Byte :=
  (encodemsg msg size mybat3).2.take BAT3request.size

private theorem extract_word (lo hi : Byte) :
    (word lo hi).extractLsb' 12 4 = hi.extractLsb' 4 4 := by
  apply BitVec.eq_of_toNat_eq
  have low := lo.isLt
  have high := hi.isLt
  simp only [word, BitVec.extractLsb'_toNat, BitVec.toNat_ofNat, Nat.shiftRight_eq_div_pow]
  omega

private theorem unnamed_ofBytes (msg : List Byte) :
    (BAT3request.ofBytes msg).outputs.unnamed = unnamedBits msg := extract_word _ _

/-- A struct is known from its bytes. -/
theorem toBytes_injective : Function.Injective BAT3request.toBytes := by
  intro first second same
  have read := BAT3request.ofBytes_toBytes first []
  rw [same, BAT3request.ofBytes_toBytes] at read
  exact read.symm

/-- The flags are assigned, the other bits stay. -/
theorem encodeOutputs_eq_iff (first second : Outputs) (mybat3 : Bat3) :
    encodeOutputs first mybat3 = encodeOutputs second mybat3 ↔ first.unnamed = second.unnamed := by
  unfold encodeOutputs
  simp only [Outputs.mk.injEq, true_and]

/-- Of a request all but those bits comes from the state. -/
theorem encodeRequest_eq_iff (first second : BAT3request) (mybat3 : Bat3) :
    encodeRequest first mybat3 = encodeRequest second mybat3 ↔
      first.outputs.unnamed = second.outputs.unnamed := by
  rw [← encodeOutputs_eq_iff _ _ mybat3]
  unfold encodeRequest
  simp only [BAT3request.mk.injEq, true_and, and_true]

private theorem requestBytes_eq (msg : List Byte) {size : Nat} (room : BAT3request.size ≤ size)
    (mybat3 : Bat3) : requestBytes msg size mybat3 =
      (encodeRequest (BAT3request.ofBytes msg) mybat3).toBytes := by
  unfold requestBytes encodemsg
  rw [if_neg (Nat.not_lt.mpr room)]
  exact BAT3request.take_store _ msg

theorem msg_doRound {F : Type} (ar : Arith F) (now : Clock) (msg : List Byte)
    (reads : List (List Byte)) (sample : Bat3) (params : Action F) :
    (doRound ar now msg reads sample params).1.msg =
      requestBytes msg 56 (prepare ar now sample params).state := by
  unfold doRound requestBytes
  dsimp only
  have size : (encodemsg msg 56 (prepare ar now sample params).state).1 = BAT3request.size :=
    congrArg Prod.fst (if_neg (by decide))
  rw [size]
  split
  · rfl
  · rfl

theorem requestBytes_eq_iff (msg other : List Byte) {size : Nat} (room : BAT3request.size ≤ size)
    (mybat3 : Bat3) :
    requestBytes msg size mybat3 = requestBytes other size mybat3 ↔
      unnamedBits msg = unnamedBits other := by
  rw [requestBytes_eq msg room, requestBytes_eq other room, toBytes_injective.eq_iff,
    encodeRequest_eq_iff, unnamed_ofBytes, unnamed_ofBytes]

/-- **What a request shows.** Built in two buffers, the request of a state is the same exactly
when the buffers agree on the bits that no bit-field names; and so are the frames that a round
sends to the device. -/
theorem request_same_iff (msg other : List Byte) :
    (∀ (size : Nat) (mybat3 : Bat3), BAT3request.size ≤ size →
      (requestBytes msg size mybat3 = requestBytes other size mybat3 ↔
        unnamedBits msg = unnamedBits other)) ∧
    ∀ (F : Type) (ar : Arith F) (now : Clock) (reads : List (List Byte)) (sample : Bat3)
      (params : Action F),
      writeStream (doRound ar now msg reads sample params).1.msg =
          writeStream (doRound ar now other reads sample params).1.msg ↔
        unnamedBits msg = unnamedBits other := by
  constructor
  · intro size mybat3 room
    exact requestBytes_eq_iff msg other room mybat3
  · intro F ar now reads sample params
    rw [writeStream_injective.eq_iff, msg_doRound, msg_doRound]
    exact requestBytes_eq_iff msg other (by decide) _

/-- A buffer of zeros and one of 0xFF agree on none of those bits. -/
theorem request_same_iff_filled :
    requestBytes (List.replicate 56 0) 56 Bat3.blank =
        requestBytes (List.replicate 56 0xFF) 56 Bat3.blank ↔
      unnamedBits (List.replicate 56 0) = unnamedBits (List.replicate 56 0xFF) :=
  (request_same_iff _ _).1 56 Bat3.blank (by decide)

theorem request_depends_on_buffer :
    ¬ ∀ (mybat3 : Bat3) (msg other : List Byte), msg.length = 56 → other.length = 56 →
      requestBytes msg 56 mybat3 = requestBytes other 56 mybat3 := by
  intro same
  have bytes := same Bat3.blank (List.replicate 56 0) (List.replicate 56 0xFF)
    List.length_replicate List.length_replicate
  exact absurd bytes (by decide)

end TsBat3

import TsBat3.Vendor.Serial

/-! # Requests and their replies

`AVRsendRequest` looks at up to five packets for one that its caller takes for an answer, and sends
the request again with every second one that is refused (`TsBat3.exchange_accounted`). What else a
caller says of a packet than whether it takes it makes no difference.
-/

namespace TsBat3

/-- The packets that come next, each read into the memory that the one before has left. -/
def answers : Nat → List Poll → ByteArrayRef → List ByteArrayRef
  | 0, _, _ => []
  | count + 1, line, ret =>
      match filePacketGet line ret with
      | (none, _) => []
      | (some b, line) => b :: answers count line { ret with arr := b.arr }

/-- Whether a caller takes a packet for the answer to its request. -/
def takes (callback : ByteArrayRef → ByteArrayRef → Int) (req ret b : ByteArrayRef) : Bool :=
  callback req { ret with arr := b.arr } == 0

/-- The packets that are refused before one is taken. -/
def refused (callback : ByteArrayRef → ByteArrayRef → Int) (req ret : ByteArrayRef)
    (packets : List ByteArrayRef) : List ByteArrayRef :=
  packets.takeWhile fun b => ! takes callback req ret b

/-- A packet that is returned is not empty. -/
theorem packetLoop_len {line rest : List Poll} {fr pkt : ByteArrayRef}
    (got : packetLoop line fr = (some pkt, rest)) : 0 < pkt.len := by
  induction line generalizing fr with
  | nil => nomatch got
  | cons poll line ih =>
      cases poll with
      | silent => nomatch got
      | eof => exact ih got
      | byte ch =>
          unfold packetLoop at got
          dsimp only at got
          split at got
          · rename_i complete
            split at got
            · obtain ⟨packet, -⟩ := Prod.mk.inj got
              rw [← Option.some.inj packet]
              exact complete
            · exact ih got
          · exact ih got

section Exchange

variable (callback : ByteArrayRef → ByteArrayRef → Int) (buffer : Memory) (req : ByteArrayRef)

/-- The loop of the retries, when it has refused one packet since it sent the request, or none. -/
theorem sendLoop_run (retries : Nat) {before : Nat} (few : before < 2) (line : List Poll)
    (ret : ByteArrayRef) :
    let done := sendLoop callback buffer req retries (2 - before) line ret
    done.sent = List.replicate
        (((refused callback req ret (answers retries line ret)).length + before) / 2)
        (serialFramedSend buffer req) ∧
      done.reply = (answers retries line ret).find? (takes callback req ret) := by
  have ended {before : Nat} (few : before < 2) :
      [] = List.replicate ((0 + before) / 2) (serialFramedSend buffer req) := by
    have zero : (0 + before) / 2 = 0 := by omega
    rw [zero]
    rfl
  dsimp only
  induction retries generalizing before line ret with
  | zero => exact ⟨ended few, rfl⟩
  | succ retries ih =>
      unfold sendLoop answers
      cases got : filePacketGet line ret with
      | mk packet rest =>
      cases packet with
      | none => exact ⟨ended few, rfl⟩
      | some b =>
          have filled : b.len ≠ 0 := ne_of_gt (packetLoop_len got)
          dsimp only
          rw [if_neg filled, refused, List.takeWhile_cons, List.find?_cons]
          cases taken : takes callback req ret b with
          | true =>
              have answer : callback req { ret with arr := b.arr } = 0 := eq_of_beq taken
              rw [if_pos answer]
              exact ⟨ended few, rfl⟩
          | false =>
              have refusal : ¬ callback req { ret with arr := b.arr } = 0 :=
                fun same => Bool.noConfusion (taken.symm.trans (beq_iff_eq.mpr same))
              rw [if_neg refusal]
              dsimp only
              rw [Bool.not_false, if_pos rfl, List.length_cons]
              by_cases second : before = 1
              · -- the second refusal since the request was sent
                have sends : (2 : Int) - before - 1 = 0 := by omega
                obtain ⟨sent, reply⟩ := ih (by decide : 0 < 2) rest { ret with arr := b.arr }
                rw [Nat.cast_zero, Int.sub_zero] at sent reply
                have more (count : Nat) : (count + 1 + before) / 2 = (count + 0) / 2 + 1 := by omega
                rw [if_pos sends, more, List.replicate_succ]
                exact ⟨congrArg (serialFramedSend buffer req :: ·) sent, reply⟩
              · have waits : ¬ (2 : Int) - before - 1 = 0 := by omega
                have one : (2 : Int) - before - 1 = 2 - (1 : Nat) := by omega
                have later := ih (by decide : 1 < 2) rest { ret with arr := b.arr }
                have first : before = 0 := by omega
                rw [if_neg waits, one, first]
                exact later

/-- What `AVRsendRequest` sends and returns, by the packets that come. -/
theorem AVRsendRequest_run (line : List Poll) (ret : ByteArrayRef) :
    let done := AVRsendRequest callback buffer line req ret
    done.sent = List.replicate
        (1 + (refused callback (patchChecksum req) ret (answers 5 line ret)).length / 2)
        (serialFramedSend buffer (patchChecksum req)) ∧
      done.reply = (answers 5 line ret).find? (takes callback (patchChecksum req) ret) := by
  obtain ⟨sent, reply⟩ :=
    sendLoop_run callback buffer (patchChecksum req) 5 (by decide : 0 < 2) line ret
  rw [Nat.cast_zero, Int.sub_zero] at sent reply
  rw [Nat.add_zero] at sent
  refine ⟨?_, reply⟩
  rw [Nat.add_comm 1, List.replicate_succ]
  exact congrArg (serialFramedSend buffer (patchChecksum req) :: ·) sent

/-- The packets are those that are refused, and the others, the first of which is taken. -/
theorem refused_split (pkt ret : ByteArrayRef) (packets : List ByteArrayRef) :
    ∃ rest, packets = refused callback pkt ret packets ++ rest ∧
      packets.find? (takes callback pkt ret) = rest.head? ∧
      (∀ b ∈ refused callback pkt ret packets, callback pkt { ret with arr := b.arr } ≠ 0) ∧
      ∀ b ∈ rest.head?, callback pkt { ret with arr := b.arr } = 0 := by
  induction packets with
  | nil =>
      exact ⟨[], rfl, rfl, fun b member => absurd member List.not_mem_nil,
        fun b first => nomatch first⟩
  | cons packet packets ih =>
      rw [refused, List.takeWhile_cons, List.find?_cons]
      cases taken : takes callback pkt ret packet with
      | true =>
          refine ⟨packet :: packets, rfl, rfl, fun b member => absurd member List.not_mem_nil,
            fun b first => ?_⟩
          rw [← Option.some.inj first]
          exact eq_of_beq taken
      | false =>
          obtain ⟨rest, split, found, refusals, first⟩ := ih
          refine ⟨rest, congrArg _ split, found, fun b member => ?_, first⟩
          rcases List.mem_cons.mp member with rfl | later
          · exact fun same => Bool.noConfusion (taken.symm.trans (beq_iff_eq.mpr same))
          · exact refusals b later

/-- **The exchange is accounted for.** `AVRsendRequest` returns the first of the next five packets
that its caller takes, if there is one. It sends the request once, and once more for every two
packets that are refused before, whatever the caller says of them. -/
theorem exchange_accounted (line : List Poll) (ret : ByteArrayRef) :
    let pkt := patchChecksum req
    let done := AVRsendRequest callback buffer line req ret
    ∃ refusals rest, answers 5 line ret = refusals ++ rest ∧ done.reply = rest.head? ∧
      done.sent = List.replicate (1 + refusals.length / 2) (serialFramedSend buffer pkt) ∧
      (∀ b ∈ refusals, callback pkt { ret with arr := b.arr } ≠ 0) ∧
      ∀ b ∈ rest.head?, callback pkt { ret with arr := b.arr } = 0 := by
  intro pkt done
  obtain ⟨sent, reply⟩ := AVRsendRequest_run callback buffer req line ret
  obtain ⟨rest, split, found, refusals, first⟩ :=
    refused_split callback pkt ret (answers 5 line ret)
  exact ⟨_, rest, split, reply.trans found, sent, refusals, first⟩

end Exchange

/-! ### What is left of the line -/

private theorem packetLoop_suffix (line : List Poll) (fr : ByteArrayRef) :
    (packetLoop line fr).2 <:+ line := by
  induction line generalizing fr with
  | nil => exact List.suffix_rfl
  | cons poll line ih =>
      have behind (fr : ByteArrayRef) : (packetLoop line fr).2 <:+ poll :: line :=
        (ih fr).trans (List.suffix_cons poll line)
      cases poll with
      | silent => exact List.suffix_cons _ line
      | eof => exact behind fr
      | byte ch =>
          unfold packetLoop
          dsimp only
          split
          · split
            · exact List.suffix_cons _ line
            · exact behind _
          · exact behind _

theorem filePacketGet_suffix {line rest : List Poll} {fr : ByteArrayRef} {pkt : Option ByteArrayRef}
    (got : filePacketGet line fr = (pkt, rest)) : rest <:+ line := by
  have behind : (filePacketGet line fr).2 <:+ line := packetLoop_suffix line { fr with len := 0 }
  rwa [got] at behind

/-- An exchange leaves a rest of the line. -/
theorem AVRsendRequest_suffix (callback : ByteArrayRef → ByteArrayRef → Int) (buffer : Memory)
    (line : List Poll) (req ret : ByteArrayRef) :
    (AVRsendRequest callback buffer line req ret).line <:+ line := by
  have loop (retries : Nat) (repliesTillRetry : Int) (line : List Poll) (ret : ByteArrayRef) :
      (sendLoop callback buffer (patchChecksum req) retries repliesTillRetry line ret).line <:+
        line := by
    induction retries generalizing repliesTillRetry line ret with
    | zero => exact List.suffix_rfl
    | succ retries ih =>
        unfold sendLoop
        split
        · rename_i got
          exact filePacketGet_suffix got
        · rename_i b line got
          have behind := filePacketGet_suffix got
          dsimp only
          generalize (if b.len = 0 then 1
            else callback (patchChecksum req) { ret with arr := b.arr }) = retry
          split
          · exact behind
          split
          · exact (ih _ _ _).trans behind
          · exact (ih _ _ _).trans behind
  exact loop 5 2 line ret

end TsBat3

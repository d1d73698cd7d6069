import TsBat3.Server.MainLoop
import TsBat3.Vendor.Packet

/-! # What arrives at the other end of the line

The frames that the main loop writes are read off the line by the vendor's reader, packet by packet:
the requests of its rounds arrive, in order, each once and with its checksum, and every packet that
arrives is a harmless request (`TsBat3.requests_arrive`).
-/

namespace TsBat3

/-! ### Frames on a line -/

/-- The packets of a line of frames, as successive calls of the reader deliver them. -/
theorem packetGets_frames {msgs : List (List Byte)} (short : ∀ msg ∈ msgs, msg.length < 499)
    (rest : List Byte) {frs : List ByteArrayRef} (enough : frs.length = msgs.length) :
    (packetGets frs ((msgs.flatMap writeStream ++ rest).map .byte)).map Prod.fst =
      msgs.map fun msg => some (msg ++ [calcCrc msg]) := by
  induction msgs generalizing frs with
  | nil =>
      rw [List.length_eq_zero_iff.mp enough]
      rfl
  | cons msg msgs ih =>
      cases frs with
      | nil => cases enough
      | cons fr frs =>
          rw [List.forall_mem_cons] at short
          obtain ⟨pkt, got, bytes⟩ := @filePacketGet_frame [] msg List.not_mem_nil short.1
            (msgs.flatMap writeStream ++ rest) fr
          rw [List.nil_append] at got
          rw [List.flatMap_cons, List.append_assoc, packetGets, got, List.map_cons, List.map_cons,
            ← ih short.2 (Nat.succ.inj enough), ← bytes]
          rfl

/-! ### Requests on a line -/

section Arrival

variable {F : Type} {ar : Arith F}

/-- The message of a round is the struct that it stands for. -/
theorem msg_round {state : Daemon F} {event : DaemonEvent} {round : Round F}
    (made : ((daemon ar).step state event).2 = some round) : round.msg = round.request.toBytes := by
  obtain ⟨now, msg, reads, _, rfl, _⟩ := daemon_round made
  rw [request_doRound]
  have encoded : encodemsg msg 56 (prepare ar now (eeprom state).2 state.params).state =
      (BAT3request.size, (encodeRequest (BAT3request.ofBytes msg)
        (prepare ar now (eeprom state).2 state.params).state).store msg) := if_neg (by decide)
  unfold doRound
  dsimp only
  rw [encoded]
  dsimp only
  rw [BAT3request.take_store]
  split
  · rfl
  · rfl

/-- What some rounds write on the line. -/
def lineOf (rounds : List (Round F)) : List Byte :=
  (rounds.map Round.msg).flatMap writeStream

/-- **What arrives** when the frames of a run are read off the line, into any buffers: the requests
of its rounds, in order, each once and with its checksum. All of them are harmless. -/
theorem requests_arrive (ar : Arith F) (loop : MainLoop F) (turns : List LoopTurn)
    (rest : List Byte) (buffers : Nat → ByteArrayRef) :
    let sent := ((runArgument ar).outputs loop turns).flatMap Option.toList
    let packets := (packetGets ((List.range sent.length).map buffers)
      ((lineOf sent ++ rest).map .byte)).map Prod.fst
    packets = sent.map (fun round =>
        some (round.request.toBytes ++ [calcCrc round.request.toBytes])) ∧
      ∀ packet ∈ packets, ∃ bytes, packet = some bytes ∧ Harmless (BAT3request.ofBytes bytes) := by
  intro sent packets
  have every (state : Daemon F) (event : DaemonEvent) :
      ∀ round ∈ Option.toList ((daemon ar).step state event).2,
        round.msg = round.request.toBytes ∧ Harmless round.request :=
    fun round shows => ⟨msg_round (Option.mem_toList.mp shows),
      harmless_round (Option.mem_toList.mp shows)⟩
  have observed : ∀ round ∈ sent, round.msg = round.request.toBytes ∧ Harmless round.request := by
    intro round member
    obtain ⟨output, inside, shows⟩ := List.mem_flatMap.mp member
    exact (runArgument_refines ar).observed every loop turns output inside round shows
  have arrived : packets = sent.map fun round =>
      some (round.request.toBytes ++ [calcCrc round.request.toBytes]) := by
    have short : ∀ msg ∈ sent.map Round.msg, msg.length < 499 := by
      intro msg member
      obtain ⟨round, inside, rfl⟩ := List.mem_map.mp member
      rw [(observed round inside).1, BAT3request.length_toBytes]
      decide
    refine (packetGets_frames short rest ?_).trans ?_
    · rw [List.length_map, List.length_map, List.length_range]
    · rw [List.map_map]
      apply List.map_congr_left
      intro round inside
      exact congrArg (fun msg => some (msg ++ [calcCrc msg])) (observed round inside).1
  refine ⟨arrived, fun packet member => ?_⟩
  rw [arrived] at member
  obtain ⟨round, inside, rfl⟩ := List.mem_map.mp member
  refine ⟨_, rfl, ?_⟩
  rw [BAT3request.ofBytes_toBytes]
  exact (observed round inside).2

end Arrival

end TsBat3

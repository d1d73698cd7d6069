import TsBat3.Daemon.Round

/-! # Writing the EEPROM over whole runs

The handshake of a write asks until the state shows what was asked for. The state
shows that also when a round has failed, since only a reply replaces it. And when
the daemon reads as well, each of the two handshakes takes back what the other one
has asked for, so that the write is asked for again in every round.
-/

namespace TsBat3

/-- The state carries the write flag at the address. -/
def Bat3.Shows (state : Bat3) (address : Int) : Prop :=
  state.Addressed address ∧ state.eeWrite = .ON

/-- The request asks for the write. -/
def Asks (request : BAT3request) (address value : Int) : Prop :=
  (request.eeAddr.toNat : Int) = address ∧ request.eeData = .ofInt 8 value ∧
    request.outputs.eeWrite = true

section Eeprom

variable {F : Type} {ar : Arith F}

/-- A request for the write was made, and a reply received behind it shows the write
flag. -/
def Acknowledged (outputs : List (Option (Round F))) (address value : Int) : Prop :=
  ∃ earlier sent later, outputs = earlier ++ some sent :: later ∧
    Asks sent.request address value ∧
      ∃ round reply, some round ∈ some sent :: later ∧ round.received = some reply ∧
        reply.Shows address

theorem Acknowledged.append {outputs : List (Option (Round F))} {address value : Int}
    (valid : Acknowledged outputs address value) (more : List (Option (Round F))) :
    Acknowledged (outputs ++ more) address value := by
  obtain ⟨earlier, sent, later, rfl, asks, round, reply, member, received, shows'⟩ := valid
  refine ⟨earlier, sent, later ++ more, ?_, asks, round, reply, ?_, received, shows'⟩
  · rw [List.append_assoc, List.cons_append]
  · exact List.mem_append_left more member

/-- The write has been acknowledged when the handshake has moved on, and when it is
about to. -/
structure Heard (address value : Int) (outputs : List (Option (Round F)))
    (state : Daemon F) : Prop where
  only : state.params.rom = (false, true, address, value)
  moved : state.romstate ≠ .WRITE → Acknowledged outputs address value
  shown : state.state.Shows address → state.romstate = .WRITE → Acknowledged outputs address value

/-- A round that asks for the write succeeds, or is acknowledged all the same. -/
def AsksSafely (address : Int) (taken : Machine.Step (Daemon F) DaemonEvent (Option (Round F))) :
    Prop :=
  ∀ round, taken.output = some round → taken.before.romstate = .WRITE →
    ¬ taken.before.state.Shows address →
      round.ret = 0 ∨ ∃ reply, round.received = some reply ∧ reply.Shows address

/-- **One step** keeps the acknowledgement. -/
theorem Heard.step {address value : Int} (range : 0 ≤ address ∧ address ≤ 255)
    {outputs : List (Option (Round F))} {state : Daemon F}
    (valid : Heard address value outputs state) (event : DaemonEvent)
    (safe : AsksSafely address ((daemon ar).stepAt state event)) :
    Heard address value (outputs ++ [((daemon ar).step state event).2])
      ((daemon ar).step state event).1 := by
  have only := (@rom_step F ar state event).trans valid.only
  cases made : ((daemon ar).step state event).2 with
  | none =>
      obtain ⟨sample, romstate, _⟩ := rom_idle made
      refine ⟨only, fun moved => ?_, fun shown waiting => ?_⟩
      · exact (valid.moved (romstate ▸ moved)).append _
      · exact (valid.shown (sample ▸ shown) (romstate ▸ waiting)).append _
  | some round =>
      obtain ⟨now, msg, reads, called, same, sample, romstate, _⟩ := daemon_round made
      have prepared : eeprom state = dowrite state.romstate state.state address value :=
        eeprom_eq valid.only
      rw [prepared] at same sample romstate
      by_cases heard : Acknowledged outputs address value
      · exact ⟨only, fun _ => heard.append _, fun _ _ => heard.append _⟩
      have waiting : state.romstate = .WRITE := by
        by_contra moved
        exact heard (valid.moved moved)
      have unasked : ¬ state.state.Shows address := fun shown => heard (valid.shown shown waiting)
      have asked := safe round made waiting unasked
      rw [waiting, dowrite, handshake_ask unasked] at same sample romstate
      have written := @rom_request F ar now msg reads
        (askWrite address value state.state) state.params
      rw [← same] at written
      refine ⟨only, fun moved => absurd romstate moved, fun shown _ => ?_⟩
      have asks : Asks round.request address value := by
        obtain ⟨addr, data, _, write⟩ := written
        refine ⟨?_, data, write⟩
        rw [addr]
        exact addressed_ofInt range
      have reply : ∃ reply, round.received = some reply ∧ reply.Shows address := by
        rcases asked with succeeded | received
        · rw [same] at succeeded
          rw [sample] at shown
          rw [same]
          exact ⟨_, doRound_succeeded succeeded, shown⟩
        · exact received
      obtain ⟨reply, received, shows'⟩ := reply
      exact ⟨outputs, round, [], rfl, asks, round, reply, List.mem_singleton.mpr rfl, received,
        shows'⟩

/-- **Acknowledgement.** In a run that only writes, from a first reply that does not
show the write flag already, and in which every round that asks for the write
succeeds, the handshake has moved on only when the write was asked for and
acknowledged. -/
theorem write_acknowledged {start : Daemon F} (fresh : start.romstate = .WRITE)
    (only : start.params.read = false ∧ start.params.write = true)
    (range : 0 ≤ start.params.address ∧ start.params.address ≤ 255)
    (unasked : ¬ start.state.Shows start.params.address) {events : List DaemonEvent}
    (safe : ∀ taken ∈ (daemon ar).trace start events, AsksSafely start.params.address taken)
    (moved : ((daemon ar).run start events).romstate ≠ .WRITE) :
    Acknowledged ((daemon ar).outputs start events) start.params.address start.params.value := by
  have options : start.params.rom =
      (false, true, start.params.address, start.params.value) := by
    rw [Action.rom, only.1, only.2]
  have valid := (daemon ar).outputs_invariant
    (Heard start.params.address start.params.value) (AsksSafely start.params.address)
    (fun _ _ event valid allowed => valid.step range event allowed) start events
    ⟨options, fun moved => absurd fresh moved, fun shown => absurd shown unasked⟩ safe
  exact valid.moved moved

end Eeprom

/-- A daemon that is to write 0x42 to the default address. -/
def writingStart : Daemon ℚ :=
  let start := startDaemon 0 [] .blank
  { start with params := { start.params with write := true, value := 0x42 } }

/-- A round in which one message arrives. -/
def heardRound (msg : List Byte) : DaemonEvent := .round (.still 0) [] [msg]

/-- A reply that shows the write flag at the default address. -/
def writeReply : List Byte := List.replicate 14 0 ++ [0x00, 0x02, 0x80, 0x42]

/-- A device that replies with the write flag acknowledges. -/
theorem write_acknowledged_reply :
    Acknowledged ((daemon Arith.exact).outputs writingStart
      [heardRound writeReply, heardRound writeReply]) 0x80 0x42 := by
  refine @write_acknowledged ℚ Arith.exact writingStart rfl ⟨rfl, rfl⟩ (by decide)
    (fun shown => OnOff.noConfusion shown.2) [heardRound writeReply, heardRound writeReply] ?_
    (by decide +kernel)
  have succeeded : ∀ taken ∈ (daemon Arith.exact).trace writingStart
      [heardRound writeReply, heardRound writeReply],
      ∀ round, taken.output = some round → round.ret = 0 :=
    Machine.forall_of_all_outputs (by decide +kernel)
  exact fun taken member round made _ _ => Or.inl (succeeded taken member round made)

/-- On a line that stays silent the handshake moves on all the same. -/
theorem handshake_moves_in_silence :
    ¬ ∀ (start : Daemon ℚ) (events : List DaemonEvent), start.romstate = .WRITE →
      start.params.read = false → start.params.write = true →
        0 ≤ start.params.address → start.params.address ≤ 255 →
          ((daemon Arith.exact).run start events).romstate ≠ .WRITE →
            Acknowledged ((daemon Arith.exact).outputs start events) start.params.address
              start.params.value := by
  intro acknowledges
  let silence : DaemonEvent := .round (.still 0) [] []
  obtain ⟨earlier, sent, later, split, _, round, reply, member, received, _⟩ :=
    acknowledges writingStart [silence, silence] rfl rfl rfl (by decide) (by decide)
      (by decide +kernel)
  have nothing : ((daemon Arith.exact).outputs writingStart [silence, silence]).all
      (fun output => output.elim true (·.received.isNone)) = true := by decide +kernel
  have none := List.all_eq_true.mp nothing (some round)
    (split ▸ List.mem_append_right _ member)
  rw [Option.elim_some, received] at none
  exact Bool.noConfusion none

end TsBat3

import TsBat3.Daemon.Eeprom

/-! # How often the EEPROM is written

When every reply echoes the fields about the EEPROM, the handshake of a write asks
once, takes back, and rests. When the daemon reads as well, the handshake of the
read takes back the write in every round before that of the write sees it echoed,
so that every round asks for the write again.
-/

namespace TsBat3

section WriteOnce

variable {F : Type} {ar : Arith F}

/-- How many rounds there were. -/
def rounds (outputs : List (Option (Round F))) : Nat := outputs.countP Option.isSome

/-- How many requests asked for a write. -/
def writes (outputs : List (Option (Round F))) : Nat :=
  outputs.countP fun output => output.elim false (·.request.outputs.eeWrite)

/-- The round succeeds with a reply that echoes what the request says about the
EEPROM. -/
def EchoesRom (round : Round F) : Prop :=
  round.ret = 0 ∧ ∃ reply, round.received = some reply ∧ reply.eeAddr = round.request.eeAddr ∧
    reply.eeRead = .onIf round.request.outputs.eeRead ∧
    reply.eeWrite = .onIf round.request.outputs.eeWrite

instance (round : Round F) : Decidable (EchoesRom round) :=
  decidable_of_iff
    (round.ret = 0 ∧ ∃ reply ∈ round.received, reply.eeAddr = round.request.eeAddr ∧
      reply.eeRead = .onIf round.request.outputs.eeRead ∧
      reply.eeWrite = .onIf round.request.outputs.eeWrite) Iff.rfl

/-- What a round with an echo does to the handshake: the state shows what the
handshakes have prepared, and the request says so. -/
theorem echo_step {state : Daemon F} {event : DaemonEvent} {round : Round F}
    (made : ((daemon ar).step state event).2 = some round) (echoes : EchoesRom round) :
    let next := ((daemon ar).step state event).1
    next.romstate = (eeprom state).1 ∧ next.state.eeAddr = (eeprom state).2.eeAddr ∧
      next.state.eeRead = (eeprom state).2.eeRead ∧
      next.state.eeWrite = (eeprom state).2.eeWrite ∧
      round.request.outputs.eeWrite = ((eeprom state).2.eeWrite == .ON) := by
  obtain ⟨now, msg, reads, _, same, sample, romstate, _⟩ := daemon_round made
  obtain ⟨addr, _, read, write⟩ := @rom_request F ar now msg reads (eeprom state).2 state.params
  rw [← same] at addr read write
  obtain ⟨succeeded, reply, received, addr', read', write'⟩ := echoes
  have left : ((daemon ar).step state event).1.state = reply := by
    rw [same] at succeeded received
    rw [sample]
    exact Option.some.inj ((doRound_succeeded succeeded).symm.trans received)
  dsimp only
  rw [left, addr', read', write', addr, read, write, onIf_of_beq, onIf_of_beq]
  exact ⟨romstate, rfl, rfl, rfl, rfl⟩

/-- **Counting.** A relation between the numbers of writes and of rounds and the
daemon holds at the end of a run with echoes when steps without a round and rounds
preserve it. -/
theorem counts_invariant {start : Daemon F} {events : List DaemonEvent}
    (echoes : ∀ taken ∈ (daemon ar).trace start events, ∀ round, taken.output = some round →
      EchoesRom round)
    (inv : Nat → Nat → Daemon F → Prop) (base : inv 0 0 start)
    (idle : ∀ writes rounds (state next : Daemon F), inv writes rounds state →
      next.params.rom = state.params.rom → next.romstate = state.romstate →
        next.state = state.state → inv writes rounds next)
    (echo : ∀ writes rounds (state next : Daemon F), inv writes rounds state →
      next.params.rom = state.params.rom → next.romstate = (eeprom state).1 →
        next.state.eeAddr = (eeprom state).2.eeAddr →
          next.state.eeRead = (eeprom state).2.eeRead →
            next.state.eeWrite = (eeprom state).2.eeWrite →
              inv (writes + if (eeprom state).2.eeWrite = .ON then 1 else 0) (rounds + 1) next) :
    let outputs := (daemon ar).outputs start events
    inv (writes outputs) (rounds outputs) ((daemon ar).run start events) := by
  refine (daemon ar).outputs_invariant (fun past state => inv (writes past) (rounds past) state)
    (fun taken => ∀ round, taken.output = some round → EchoesRom round)
    (fun past state event valid allowed => ?_) start events base echoes
  have counted : ∀ output : Option (Round F),
      writes (past ++ [output]) = writes past + writes [output] ∧
        rounds (past ++ [output]) = rounds past + rounds [output] :=
    fun output => ⟨List.countP_append, List.countP_append⟩
  rw [(counted _).1, (counted _).2]
  have options := @rom_step F ar state event
  cases made : ((daemon ar).step state event).2 with
  | none =>
      obtain ⟨sample, romstate, _⟩ := rom_idle made
      exact idle _ _ state _ valid options romstate sample
  | some round =>
      obtain ⟨romstate, addr, read, write, asked⟩ := echo_step made (allowed round made)
      have one : writes [some round] = if (eeprom state).2.eeWrite = .ON then 1 else 0 := by
        rw [writes, List.countP_singleton, Option.elim_some, asked]
        cases (eeprom state).2.eeWrite <;> rfl
      rw [one]
      exact echo _ _ state _ valid options romstate addr read write

/-- Without the write flag nothing is written. -/
theorem writes_eq_zero {start : Daemon F} {events : List DaemonEvent}
    (echoes : ∀ taken ∈ (daemon ar).trace start events, ∀ round, taken.output = some round →
      EchoesRom round) {read : Bool} {address value : Int}
    (options : start.params.rom = (read, false, address, value))
    (quiet : start.state.eeWrite = .OFF) : writes ((daemon ar).outputs start events) = 0 := by
  have counted := counts_invariant echoes (fun writes _ state =>
      state.params.rom = (read, false, address, value) ∧ state.state.eeWrite = .OFF ∧ writes = 0)
    ⟨options, quiet, rfl⟩ ?_ ?_
  · exact counted.2.2
  · rintro writes rounds state next ⟨flags, off, none⟩ same _ sample
    rw [same, sample]
    exact ⟨flags, off, none⟩
  · rintro writes rounds state next ⟨flags, off, none⟩ same _ _ _ write
    have still : (eeprom state).2.eeWrite = .OFF := by
      rw [eeprom_eq flags]
      cases read with
      | false => exact off
      | true =>
          exact handshake_invariant (fun state => state.eeWrite = .OFF) (fun _ _ => rfl)
            (fun _ _ => rfl) state.romstate off
    rw [same, write, still]
    exact ⟨flags, rfl, none⟩

/-- With the write flag alone the handshake asks in the first round, takes back in the
second and rests. -/
theorem writes_alone {start : Daemon F} {events : List DaemonEvent}
    (echoes : ∀ taken ∈ (daemon ar).trace start events, ∀ round, taken.output = some round →
      EchoesRom round) {address value : Int} (range : 0 ≤ address ∧ address ≤ 255)
    (options : start.params.rom = (false, true, address, value))
    (fresh : start.romstate = .WRITE) (quiet : start.state.eeWrite = .OFF) :
    let outputs := (daemon ar).outputs start events
    writes outputs ≤ 1 ∧ (1 ≤ rounds outputs → writes outputs = 1) := by
  have counted := counts_invariant echoes (fun writes rounds state =>
      state.params.rom = (false, true, address, value) ∧
        ((rounds = 0 ∧ writes = 0 ∧ state.romstate = .WRITE ∧ state.state.eeWrite = .OFF) ∨
          (writes = 1 ∧ state.romstate = .WRITE ∧ state.state.Addressed address ∧
            state.state.eeWrite = .ON) ∨
          (writes = 1 ∧ state.romstate ≠ .WRITE ∧ state.state.eeWrite = .OFF)))
    ⟨options, Or.inl ⟨rfl, rfl, fresh, quiet⟩⟩ ?_ ?_
  · rcases counted.2 with ⟨none, zero, _⟩ | ⟨one, _⟩ | ⟨one, _⟩
    · omega
    · omega
    · omega
  · rintro writes rounds state next ⟨flags, phase⟩ same romstate sample
    rw [same, romstate, sample]
    exact ⟨flags, phase⟩
  · rintro writes rounds state next ⟨flags, phase⟩ same romstate addr _ write
    have prepared : eeprom state = dowrite state.romstate state.state address value :=
      eeprom_eq flags
    rw [same]
    refine ⟨flags, ?_⟩
    rw [prepared] at romstate addr write ⊢
    rcases phase with ⟨_, zero, waiting, off⟩ | ⟨one, waiting, shown⟩ | ⟨one, settled, off⟩
    · -- the first round asks
      have unasked : ¬ (state.state.Addressed address ∧ state.state.eeWrite = .ON) :=
        fun shown => OnOff.noConfusion (off.symm.trans shown.2)
      rw [waiting, dowrite, handshake_ask unasked] at romstate addr write ⊢
      refine Or.inr (Or.inl ⟨by rw [zero]; rfl, romstate, ?_, write⟩)
      rw [Bat3.Addressed, addr]
      exact addressed_ofInt range
    · -- the second round sees the echo and takes back
      rw [waiting, dowrite, handshake_acknowledged shown] at romstate addr write ⊢
      refine Or.inr (Or.inr ⟨one, ?_, write⟩)
      rw [romstate]
      exact RomState.noConfusion
    · have kept := @handshake_settled Bat3.eeWrite (askWrite address value) state.state address
        state.romstate settled
      have still : (dowrite state.romstate state.state address value).2.eeWrite = .OFF := by
        unfold dowrite
        rcases kept.2 with released | unchanged
        · rw [released]
          rfl
        · rw [unchanged]
          exact off
      rw [still] at write ⊢
      exact Or.inr (Or.inr ⟨one, romstate ▸ kept.1, write⟩)

/-- With both flags every round asks for the write. -/
theorem writes_both {start : Daemon F} {events : List DaemonEvent}
    (echoes : ∀ taken ∈ (daemon ar).trace start events, ∀ round, taken.output = some round →
      EchoesRom round) {address value : Int}
    (options : start.params.rom = (true, true, address, value))
    (fresh : start.romstate = .WRITE) (quiet : start.state.eeRead = .OFF) :
    let outputs := (daemon ar).outputs start events
    writes outputs = rounds outputs := by
  have counted := counts_invariant echoes (fun writes rounds state =>
      state.params.rom = (true, true, address, value) ∧ state.romstate = .WRITE ∧
        state.state.eeRead = .OFF ∧ writes = rounds) ⟨options, fresh, quiet, rfl⟩ ?_ ?_
  · exact counted.2.2.2
  · rintro writes rounds state next ⟨flags, waiting, off, same⟩ kept romstate sample
    rw [kept, romstate, sample]
    exact ⟨flags, waiting, off, same⟩
  · rintro writes rounds state next ⟨flags, waiting, off, same⟩ kept romstate _ read _
    have unread : ¬ (state.state.Addressed address ∧ state.state.eeRead = .ON) :=
      fun shown => OnOff.noConfusion (off.symm.trans shown.2)
    have unwritten : ¬ ((askRead address state.state).Addressed address ∧
        (askRead address state.state).eeWrite = .ON) := fun shown => OnOff.noConfusion shown.2
    -- the read asks and takes the write back, the write asks and takes the read back
    have prepared : eeprom state =
        (.WRITE, askWrite address value (askRead address state.state)) := by
      rw [eeprom_eq flags, waiting]
      change dowrite (doread .WRITE state.state address).1 (doread .WRITE state.state address).2
        address value = _
      unfold doread dowrite
      rw [handshake_ask unread, handshake_ask unwritten]
    rw [prepared] at romstate read ⊢
    rw [kept]
    exact ⟨flags, romstate, read, congrArg (· + 1) same⟩

/-- **Writing once.** In a run of rounds that all succeed with an echo, at most one
request asks for a write, and with the write flag exactly one as soon as there is a
round, exactly when the daemon does not read as well or makes one round at most. -/
theorem one_write_iff {start : Daemon F} (fresh : start.romstate = .WRITE)
    (range : 0 ≤ start.params.address ∧ start.params.address ≤ 255)
    (quiet : start.state.eeRead = .OFF ∧ start.state.eeWrite = .OFF) {events : List DaemonEvent}
    (echoes : ∀ taken ∈ (daemon ar).trace start events, ∀ round, taken.output = some round →
      EchoesRom round) :
    let outputs := (daemon ar).outputs start events
    (writes outputs ≤ 1 ∧
      (start.params.write = true → 1 ≤ rounds outputs → writes outputs = 1)) ↔
      ¬ (start.params.read = true ∧ start.params.write = true) ∨ rounds outputs ≤ 1 := by
  intro outputs
  cases write : start.params.write with
  | false =>
      have options : start.params.rom =
          (start.params.read, false, start.params.address, start.params.value) := by
        rw [Action.rom, write]
      have none : writes outputs = 0 := writes_eq_zero echoes options quiet.2
      simp only [none, Bool.false_eq_true, false_implies, and_false, not_false_eq_true, true_or,
        Nat.zero_le, and_self]
  | true =>
      cases read : start.params.read with
      | false =>
          have options : start.params.rom =
              (false, true, start.params.address, start.params.value) := by
            rw [Action.rom, read, write]
          have once := writes_alone echoes range options fresh quiet.2
          simp only [Bool.false_eq_true, false_and, not_false_eq_true, true_or, iff_true]
          exact ⟨once.1, fun _ => once.2⟩
      | true =>
          have options : start.params.rom =
              (true, true, start.params.address, start.params.value) := by
            rw [Action.rom, read, write]
          have all : writes outputs = rounds outputs := writes_both echoes options fresh quiet.1
          rw [all]
          simp only [true_implies, and_self, not_true_eq_false, false_or]
          omega

end WriteOnce

/-- A reply that shows the same place of the EEPROM, without the write flag. -/
def writtenReply : List Byte := List.replicate 14 0 ++ [0x00, 0x00, 0x80, 0x42]

/-- Three rounds of the daemon that only writes, with their echoes: one of them asks for it. -/
theorem one_write_first :
    let events := [heardRound writeReply, heardRound writtenReply, heardRound writtenReply]
    let outputs := (daemon Arith.exact).outputs writingStart events
    rounds outputs = 3 ∧ writes outputs ≤ 1 ∧
      (writingStart.params.write = true → 1 ≤ rounds outputs → writes outputs = 1) := by
  intro events outputs
  have echoes : ∀ taken ∈ (daemon Arith.exact).trace writingStart events,
      ∀ round, taken.output = some round → EchoesRom round :=
    Machine.forall_of_all_outputs (by decide +kernel)
  exact ⟨by decide +kernel, (@one_write_iff ℚ Arith.exact writingStart rfl (by decide) ⟨rfl, rfl⟩
    events echoes).mpr (Or.inl fun both => Bool.noConfusion both.1)⟩

/-- A daemon that reads as well asks for the write in both of two rounds. -/
theorem writes_again_after_reading :
    ¬ ∀ (start : Daemon ℚ) (events : List DaemonEvent), start.romstate = .WRITE →
      0 ≤ start.params.address → start.params.address ≤ 255 → start.state.eeRead = .OFF →
        start.state.eeWrite = .OFF →
          (∀ taken ∈ (daemon Arith.exact).trace start events, ∀ round,
            taken.output = some round → EchoesRom round) →
            writes ((daemon Arith.exact).outputs start events) ≤ 1 := by
  intro once
  let both : Daemon ℚ := { writingStart with params := { writingStart.params with read := true } }
  let events := [heardRound writeReply, heardRound writeReply]
  have counted := once both events rfl (by decide) (by decide) rfl rfl
    (Machine.forall_of_all_outputs (by decide +kernel))
  exact absurd counted (by decide +kernel)

end TsBat3

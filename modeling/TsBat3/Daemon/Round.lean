import TsBat3.Foundation.Machine
import TsBat3.Message.Convert
import TsBat3.Charger.Load
import TsBat3.Charger.Params
import TsBat3.Daemon.Rom

/-! # The daemon's main loop

A round makes a request of the state of the last reply and waits for the next
reply. Between rounds clients change the parameters. The daemon is a machine whose
events are rounds, each with what the successive calls of `readStream` return in
it, and client commands.
-/

namespace TsBat3

def MAX_RETRIES : Nat := 5

/-- The loop of `getsample`, with the tries that are left. -/
def getsampleLoop : Nat → List (List Byte) → Option Bat3 × List (List Byte)
  | 0, reads => (none, reads)
  | _ + 1, [] => (none, [])
  | tries + 1, msg :: reads =>
      -- nothing was read
      if msg.length = 0 then getsampleLoop tries reads
      else
        match decodemsg msg msg.length with
        | none => getsampleLoop tries reads
        | some temp => (some temp, reads)

/-- A sample from the device, if one arrives in time, and the reads that are left. A
device that has no more reads is silent. -/
def getsample (reads : List (List Byte)) : Option Bat3 × List (List Byte) :=
  getsampleLoop MAX_RETRIES reads

/-- The loop of `doRound` around `getsample`, with the retries that are left: how
often it retried, and the sample. -/
def retryLoop : Nat → List (List Byte) → Nat × Option Bat3
  | 0, reads => (0, (getsample reads).1)
  | retries + 1, reads =>
      match getsample reads with
      | (some sample, _) => (0, some sample)
      | (none, reads) =>
          let (cnt, sample) := retryLoop retries reads
          (cnt + 1, sample)

/-- What a round does: its call of `doload`, the message it writes, the sample it
receives, and its return value. -/
structure Round (F : Type) where
  load : Load F
  msg : List Byte
  received : Option Bat3
  ret : Int

/-- The request that a round writes. -/
def Round.request {F : Type} (round : Round F) : BAT3request := BAT3request.ofBytes round.msg

section Round

variable {F : Type} (ar : Arith F)

/-- The state is prepared for the request. -/
def prepare (now : Clock) (sample : Bat3) (params : Action F) : Load F :=
  if sample.batRun = .ON then doload ar now { sample with led := .OFF } params
  else doload ar now (changeled sample) params

/-- A round with what its message buffer holds at the start. The sample is replaced
only when the round has not used up its retries. -/
def doRound (now : Clock) (msg : List Byte) (reads : List (List Byte)) (sample : Bat3)
    (params : Action F) : Round F × Bat3 :=
  let load := prepare ar now sample params
  let (size, msg) := encodemsg msg 56 load.state
  let (cnt, received) := retryLoop MAX_RETRIES reads
  if cnt ≥ MAX_RETRIES then
    ({ load, msg := msg.take size, received, ret := -1 }, sample)
  else
    ({ load, msg := msg.take size, received, ret := 0 }, received.getD load.state)

variable {ar} {now : Clock} {msg : List Byte} {reads : List (List Byte)} {sample : Bat3}
  {params : Action F}

/-- Apart from the LED the state is prepared by `doload`. -/
theorem prepare_eq (ar : Arith F) (now : Clock) (sample : Bat3) (params : Action F) :
    ∃ led, prepare ar now sample params = doload ar now { sample with led } params := by
  unfold prepare
  split
  · exact ⟨.OFF, rfl⟩
  · unfold changeled
    split
    · exact ⟨.OFF, rfl⟩
    · exact ⟨.ON, rfl⟩

/-- A round that leaves the op-amp on has charged. -/
theorem charged_prepare (on : (prepare ar now sample params).state.opampEn = .ON) :
    Charged sample params (prepare ar now sample params).state := by
  obtain ⟨led, prepared⟩ := prepare_eq ar now sample params
  rw [prepared] at on ⊢
  exact charged_doload on

theorem rom_prepare (ar : Arith F) (now : Clock) (sample : Bat3) (params : Action F) :
    (prepare ar now sample params).state.rom = sample.rom := by
  obtain ⟨led, prepared⟩ := prepare_eq ar now sample params
  rw [prepared, rom_doload]
  rfl

/-- A loop that finds no sample uses up its retries. -/
theorem retryLoop_none {retries : Nat} {reads : List (List Byte)}
    (nothing : (retryLoop retries reads).2 = none) : (retryLoop retries reads).1 = retries := by
  induction retries generalizing reads with
  | zero => rfl
  | succ retries ih =>
      unfold retryLoop at nothing ⊢
      split at nothing
      · cases nothing
      · exact congrArg (· + 1) (ih nothing)

theorem load_doRound : (doRound ar now msg reads sample params).1.load =
    prepare ar now sample params := by
  unfold doRound
  dsimp only
  split
  · rfl
  · rfl

/-- The request is made of the prepared state. -/
theorem request_doRound : (doRound ar now msg reads sample params).1.request =
    encodeRequest (BAT3request.ofBytes msg) (prepare ar now sample params).state := by
  have written := BAT3request.ofBytes_toBytes
    (encodeRequest (BAT3request.ofBytes msg) (prepare ar now sample params).state) []
  rw [List.append_nil] at written
  have encoded : encodemsg msg 56 (prepare ar now sample params).state =
      (BAT3request.size, (encodeRequest (BAT3request.ofBytes msg)
        (prepare ar now sample params).state).store msg) := if_neg (by decide)
  unfold doRound Round.request
  dsimp only
  rw [encoded]
  dsimp only
  rw [BAT3request.take_store]
  split
  · exact written
  · exact written

/-- The fields about the EEPROM in the request of a round are those that the
handshakes have prepared. -/
theorem rom_request :
    let request := (doRound ar now msg reads sample params).1.request
    request.eeAddr = sample.eeAddr ∧ request.eeData = sample.eeData ∧
      request.outputs.eeRead = (sample.eeRead == .ON) ∧
      request.outputs.eeWrite = (sample.eeWrite == .ON) := by
  have prepared := rom_prepare ar now sample params
  simp only [Bat3.rom, Prod.mk.injEq] at prepared
  obtain ⟨addr, data, read, write⟩ := prepared
  dsimp only
  rw [request_doRound, ← addr, ← data, ← read, ← write]
  exact ⟨rfl, rfl, rfl, rfl⟩

/-- A round that succeeds leaves the sample it has received. -/
theorem doRound_succeeded (succeeded : (doRound ar now msg reads sample params).1.ret = 0) :
    (doRound ar now msg reads sample params).1.received =
      some (doRound ar now msg reads sample params).2 := by
  unfold doRound at succeeded ⊢
  dsimp only at succeeded ⊢
  split at succeeded
  · exact absurd (show (-1 : Int) = 0 from succeeded) (by decide)
  · rename_i early
    rw [if_neg early]
    cases received : (retryLoop MAX_RETRIES reads).2 with
    | none => exact absurd (retryLoop_none received).ge early
    | some reply => rfl

/-- A round that fails leaves the sample as it was. -/
theorem doRound_failed (failed : (doRound ar now msg reads sample params).1.ret ≠ 0) :
    (doRound ar now msg reads sample params).2 = sample := by
  unfold doRound at failed ⊢
  dsimp only at failed ⊢
  split at failed
  · rename_i exhausted
    rw [if_pos exhausted]
  · exact absurd rfl failed

end Round

/-- The variables of `runArgument` and the globals behind it. -/
structure Daemon (F : Type) where
  state : Bat3
  romstate : RomState
  params : Action F
  loglevel : Int
  cntsamples : Nat
  swContinue : Bool

/-- What clients ask for, with the number that `sscanf` finds. -/
inductive Command
  | current (number : Option Int)
  | hours (now : Time) (number : Option Int)
  | loglevel (number : Option Int)
  | exit
  | other

/-- The log level after `setloglevel`. -/
def setloglevel (loglevel newlevel : Int) : Int :=
  if newlevel = 9 ∨ newlevel = 8 ∨ newlevel = 7 then 7
  else if newlevel = 6 then 6
  else if newlevel = 5 then 5
  else if newlevel = 4 then 4
  else if newlevel = 3 ∨ newlevel = 2 then 3
  else if newlevel = 1 then 1
  else if newlevel = 0 then loglevel
  else 1

section Daemon

variable {F : Type}

/-- The handlers of the commands that change anything. -/
def runCommand (daemon : Daemon F) : Command → Daemon F
  | .current (some number) => { daemon with params := setCurrent daemon.params number }
  | .hours now (some number) => { daemon with params := setHours now daemon.params number }
  | .loglevel (some number) =>
      let loglevel := setloglevel daemon.loglevel number
      { daemon with loglevel, params := { daemon.params with loglevel } }
  | .exit => { daemon with swContinue := false }
  | _ => daemon

/-- The handshakes before a round. -/
def eeprom (daemon : Daemon F) : RomState × Bat3 :=
  let params := daemon.params
  let (romstate, state) :=
    if params.read then doread daemon.romstate daemon.state params.address
    else (daemon.romstate, daemon.state)
  if params.write then dowrite romstate state params.address params.value else (romstate, state)

/-- The condition of the main loop. -/
def Daemon.running (daemon : Daemon F) : Bool :=
  (daemon.cntsamples < daemon.params.samples || daemon.params.samples == -1) && daemon.swContinue

/-- What reaches the daemon. -/
inductive DaemonEvent
  | round (now : Clock) (msg : List Byte) (reads : List (List Byte))
  | command (command : Command)

/-- The daemon: it answers an event with the round it makes. -/
def daemon (ar : Arith F) : Machine (Daemon F) DaemonEvent (Option (Round F)) where
  step daemon
    | .round now msg reads =>
        if daemon.running then
          let (romstate, state) := eeprom daemon
          let (round, state) := doRound ar now msg reads state daemon.params
          let cntsamples :=
            if daemon.params.samples = -1 ∧ daemon.cntsamples > 10000 then daemon.cntsamples
            else daemon.cntsamples + 1
          ({ daemon with state, romstate, params := round.load.target, cntsamples }, some round)
        else (daemon, none)
    | .command command =>
        if daemon.swContinue then (runCommand daemon command, none) else (daemon, none)

/-- The daemon after the first sample. -/
def startDaemon (zero : F) (arguments : List Argument) (state : Bat3) : Daemon F :=
  let params := startParams zero arguments
  { state
    romstate := .WRITE
    params
    loglevel := setloglevel 1 params.loglevel
    cntsamples := 0
    swContinue := true }

/-- The parameters that say what to do with the EEPROM. -/
def Action.rom (params : Action F) : Bool × Bool × Int × Int :=
  (params.read, params.write, params.address, params.value)

theorem Action.SameOptions.rom {params next : Action F} (same : params.SameOptions next) :
    next.rom = params.rom := by
  obtain ⟨_, _, _, _, rfl⟩ := same
  rfl

theorem sameOptions_prepare (ar : Arith F) (now : Clock) (sample : Bat3) (params : Action F) :
    params.SameOptions (prepare ar now sample params).target := by
  obtain ⟨led, prepared⟩ := prepare_eq ar now sample params
  rw [prepared]
  exact sameOptions_doload ar now _ params

/-- The handshakes depend on the parameters about the EEPROM alone. -/
theorem eeprom_eq {daemon : Daemon F} {read write : Bool} {address value : Int}
    (options : daemon.params.rom = (read, write, address, value)) :
    eeprom daemon =
      let (romstate, state) :=
        if read then doread daemon.romstate daemon.state address
        else (daemon.romstate, daemon.state)
      if write then dowrite romstate state address value else (romstate, state) := by
  simp only [Action.rom, Prod.mk.injEq] at options
  obtain ⟨rfl, rfl, rfl, rfl⟩ := options
  rfl

/-- The handshakes change nothing but the fields about the EEPROM. -/
theorem eeprom_frame {α : Type} (field : Bat3 → α)
    (apart : ∀ (state : Bat3) eeAddr eeData eeRead eeWrite,
      field { state with eeAddr, eeData, eeRead, eeWrite } = field state) (daemon : Daemon F) :
    field (eeprom daemon).2 = field daemon.state := by
  have read (romstate : RomState) (state : Bat3) (address : Int) :
      field (doread romstate state address).2 = field state :=
    handshake_invariant (fun other => field other = field state)
      (fun other same => (apart other _ _ _ _).trans same)
      (fun other same => (apart other _ other.eeData _ _).trans same) romstate rfl
  have write (romstate : RomState) (state : Bat3) (address value : Int) :
      field (dowrite romstate state address value).2 = field state :=
    handshake_invariant (fun other => field other = field state)
      (fun other same => (apart other _ _ _ _).trans same)
      (fun other same => (apart other _ other.eeData _ _).trans same) romstate rfl
  unfold eeprom
  dsimp only
  split
  · rw [write]
    split
    · exact read _ _ _
    · rfl
  · split
    · exact read _ _ _
    · rfl

variable {ar : Arith F}

/-- **What a step with a round does.** -/
theorem daemon_round {state : Daemon F} {event : DaemonEvent} {round : Round F}
    (made : ((daemon ar).step state event).2 = some round) :
    ∃ now msg reads, event = .round now msg reads ∧
      round = (doRound ar now msg reads (eeprom state).2 state.params).1 ∧
      ((daemon ar).step state event).1.state =
        (doRound ar now msg reads (eeprom state).2 state.params).2 ∧
      ((daemon ar).step state event).1.romstate = (eeprom state).1 ∧
      ((daemon ar).step state event).1.params = round.load.target := by
  cases event with
  | command command =>
      unfold daemon at made
      dsimp only at made
      split at made
      · cases made
      · cases made
  | round now msg reads =>
      refine ⟨now, msg, reads, rfl, ?_⟩
      unfold daemon at made ⊢
      dsimp only at made ⊢
      split at made
      · rename_i running
        rw [if_pos running]
        cases made
        exact ⟨rfl, rfl, rfl, rfl⟩
      · cases made

/-- **What a step without a round does**: it runs a command or nothing. -/
theorem daemon_idle {state : Daemon F} {event : DaemonEvent}
    (idle : ((daemon ar).step state event).2 = none) :
    ((daemon ar).step state event).1 = state ∨
      ∃ command, event = .command command ∧
        ((daemon ar).step state event).1 = runCommand state command := by
  cases event with
  | command command =>
      unfold daemon
      dsimp only
      split
      · exact Or.inr ⟨command, rfl, rfl⟩
      · exact Or.inl rfl
  | round now msg reads =>
      unfold daemon at idle ⊢
      dsimp only at idle ⊢
      split at idle
      · cases idle
      · rename_i stopped
        rw [if_neg stopped]
        exact Or.inl rfl

/-- A round is made while the main loop runs. -/
theorem daemon_makes_round (state : Daemon F) (now : Clock) (msg : List Byte)
    (reads : List (List Byte)) :
    ((daemon ar).step state (.round now msg reads)).2 ≠ none ↔ state.running = true := by
  unfold daemon
  dsimp only
  by_cases running : state.running = true
  · rw [if_pos running]
    exact ⟨fun _ => running, fun _ => Option.some_ne_none _⟩
  · rw [if_neg running]
    exact ⟨fun made => absurd rfl made, fun other => absurd other running⟩

/-- A command leaves the handshake and what to do with the EEPROM as they are. -/
theorem runCommand_rom (state : Daemon F) (command : Command) :
    (runCommand state command).state = state.state ∧
      (runCommand state command).romstate = state.romstate ∧
      (runCommand state command).params.rom = state.params.rom := by
  cases command with
  | current number => cases number <;> exact ⟨rfl, rfl, rfl⟩
  | hours now number =>
      cases number with
      | none => exact ⟨rfl, rfl, rfl⟩
      | some number =>
          refine ⟨rfl, rfl, ?_⟩
          change (setHours now state.params number).rom = state.params.rom
          unfold setHours
          split
          · rfl
          · rfl
  | loglevel number => cases number <;> exact ⟨rfl, rfl, rfl⟩
  | exit => exact ⟨rfl, rfl, rfl⟩
  | other => exact ⟨rfl, rfl, rfl⟩

/-- A step without a round leaves the handshake as it is. -/
theorem rom_idle {state : Daemon F} {event : DaemonEvent}
    (idle : ((daemon ar).step state event).2 = none) :
    ((daemon ar).step state event).1.state = state.state ∧
      ((daemon ar).step state event).1.romstate = state.romstate ∧
      ((daemon ar).step state event).1.params.rom = state.params.rom := by
  rcases daemon_idle idle with same | ⟨command, _, ran⟩
  · rw [same]
    exact ⟨rfl, rfl, rfl⟩
  · rw [ran]
    exact runCommand_rom state command

/-- No step changes what to do with the EEPROM. -/
theorem rom_step (state : Daemon F) (event : DaemonEvent) :
    ((daemon ar).step state event).1.params.rom = state.params.rom := by
  cases made : ((daemon ar).step state event).2 with
  | some round =>
      obtain ⟨now, msg, reads, _, same, _, _, params⟩ := daemon_round made
      rw [params, same, load_doRound]
      exact (sameOptions_prepare ar now _ state.params).rom
  | none => exact (rom_idle made).2.2

end Daemon

end TsBat3

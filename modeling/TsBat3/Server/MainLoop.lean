import TsBat3.Charger.Window
import TsBat3.Daemon.Pwm
import TsBat3.Daemon.WriteOnce
import TsBat3.Foundation.Refinement
import TsBat3.Server.Commanded

/-! # The main loop

A turn of the main loop of `runArgument` makes a round when the device has something to read, and
calls the server; a call of `select` that fails ends the loop. However the device, the clients and
the system behave, the loop moves the daemon as a run of rounds and commands does, and makes the
same rounds (`TsBat3.runArgument_refines`). What holds of the daemon therefore holds of the whole
program: its parameters are well-formed, its requests harmless, and its rounds counted.
-/

namespace TsBat3

/-- What `select` says of the device: it can be read, or not, or the call has failed. -/
inductive Select
  | ready
  | quiet
  | failed
deriving DecidableEq, Repr

/-- What a turn of the main loop meets. -/
structure LoopTurn where
  select : Select
  now : Clock
  msg : List Byte
  reads : List (List Byte)
  sys : Answers

/-- The variables of the main loop, and whether it has returned early. -/
structure MainLoop (F : Type) extends Net F where
  failed : Bool

section MainLoop

variable {F : Type} (ar : Arith F)

/-- The main loop when it is entered. -/
def startMainLoop (net : Net F) : MainLoop F := { net with failed := false }

/-- The main loop makes another turn. -/
def MainLoop.running (loop : MainLoop F) : Bool := ! loop.failed && loop.daemon.running

/-- The part of a turn that deals with the device. -/
def deviceTurn (start : Daemon F) (turn : LoopTurn) : Daemon F × Option (Round F) :=
  if turn.select = .ready then (daemon ar).step start (.round turn.now turn.msg turn.reads)
  else (start, none)

/-- The main loop of `runArgument`, from the first sample on. -/
def runArgument : Machine (MainLoop F) LoopTurn (Option (Round F)) where
  step loop turn :=
    if loop.running then
      if turn.select = .failed then ({ loop with failed := true }, none)
      else
        let (daemon, round) := deviceTurn ar loop.daemon turn
        ({ loop with toNet := (connections.step { loop.toNet with daemon } turn.sys).1 }, round)
    else (loop, none)

variable {ar}

/-- Commands make no rounds. -/
theorem outputs_commands (ar : Arith F) (start : Daemon F) (commands : List Command) :
    ((daemon ar).outputs start (commands.map .command)).flatMap Option.toList = [] := by
  rw [List.flatMap_eq_nil_iff]
  intro output member
  obtain ⟨taken, inside, rfl⟩ := List.mem_map.mp member
  obtain ⟨command, -, given⟩ := List.mem_map.mp (Machine.event_mem _ inside)
  obtain ⟨_, event, _, _, rfl⟩ := (Machine.mem_trace _ _ _ taken).mp inside
  obtain rfl : _ = event := given
  change Option.toList (if _ then _ else _ : Daemon F × Option (Round F)).2 = []
  split
  · rfl
  · rfl

theorem step_failed {loop : MainLoop F} {turn : LoopTurn} (running : loop.running = true)
    (failed : turn.select = .failed) :
    (runArgument ar).step loop turn = ({ loop with failed := true }, none) :=
  (if_pos running).trans (if_pos failed)

theorem step_turn {loop : MainLoop F} {turn : LoopTurn} (running : loop.running = true)
    (goesOn : turn.select ≠ .failed) :
    (runArgument ar).step loop turn =
      ({ loop with
          toNet := (connections.step
            { loop.toNet with daemon := (deviceTurn ar loop.daemon turn).1 } turn.sys).1 },
        (deviceTurn ar loop.daemon turn).2) :=
  (if_pos running).trans (if_neg goesOn)

/-- **The main loop refines the daemon**: it moves the daemon as rounds and commands do, and makes
the same rounds. -/
theorem runArgument_refines (ar : Arith F) :
    (runArgument ar).Refines (daemon ar) (·.daemon) Option.toList Option.toList := by
  intro loop turn
  by_cases running : loop.running = true
  swap
  · rw [show (runArgument ar).step loop turn = (loop, none) from if_neg running]
    exact ⟨[], rfl, rfl⟩
  by_cases failed : turn.select = .failed
  · rw [step_failed running failed]
    exact ⟨[], rfl, rfl⟩
  obtain ⟨commands, given⟩ := connections_step_commands ar
    { loop.toNet with daemon := (deviceTurn ar loop.daemon turn).1 } turn.sys
  rw [step_turn running failed]
  dsimp only at given ⊢
  rw [given]
  unfold deviceTurn
  split
  · refine ⟨.round turn.now turn.msg turn.reads :: commands.map .command, rfl, ?_⟩
    change _ = ((_ : Option (Round F)) :: (daemon ar).outputs _ _).flatMap Option.toList
    rw [List.flatMap_cons, outputs_commands, List.append_nil]
    rfl
  · exact ⟨commands.map .command, rfl, (outputs_commands ar _ commands).symm⟩

/-- Whatever happens to it, the main loop moves its daemon as some run of rounds and commands does,
and makes just the rounds of that run. -/
theorem main_loop_moves_daemon (ar : Arith F) (loop : MainLoop F) (turns : List LoopTurn) :
    ∃ events, ((runArgument ar).run loop turns).daemon = (daemon ar).run loop.daemon events ∧
      ((runArgument ar).outputs loop turns).flatMap Option.toList =
        ((daemon ar).outputs loop.daemon events).flatMap Option.toList :=
  (runArgument_refines ar).run loop turns

/-! ### The parameters -/

/-- The parameters as every part of the daemon takes them for granted, and the samples counted. -/
structure Wellformed (daemon : Daemon F) : Prop where
  current : 0 ≤ daemon.params.current ∧ daemon.params.current ≤ 2000
  samples : -1 ≤ daemon.params.samples
  loglevel : daemon.loglevel ∈ [1, 3, 4, 5, 6, 7]
  weightpos : daemon.params.weightpos < MAXMIN
  counted : (daemon.params.samples = -1 ∧ daemon.cntsamples ≤ 10001) ∨
    (daemon.cntsamples : Int) ≤ daemon.params.samples

private theorem current_setCurrent (params : Action F) (i : Int) :
    0 ≤ (setCurrent params i).current ∧ (setCurrent params i).current ≤ 2000 := by
  unfold setCurrent
  dsimp only
  split
  · decide
  · omega

private theorem setloglevel_mem {loglevel : Int} (known : loglevel ∈ [1, 3, 4, 5, 6, 7])
    (newlevel : Int) : setloglevel loglevel newlevel ∈ [1, 3, 4, 5, 6, 7] := by
  unfold setloglevel
  split_ifs
  · decide
  · decide
  · decide
  · decide
  · decide
  · decide
  · exact known
  · decide

/-- The history never fills its array. -/
theorem weightpos_doload (ar : Arith F) (now : Clock) (state : Bat3) {target : Action F}
    (inside : target.weightpos < MAXMIN) :
    (doload ar now state target).target.weightpos < MAXMIN := by
  have checked (time : Time) (target : Action F) :
      (checkStable ar time target).target.weightpos = target.weightpos := by
    obtain ⟨stableTime, same⟩ := checkStable_target ar time target
    rw [same]
  have recorded (batU : Word) : (record ar now batU target).1.weightpos < MAXMIN := by
    unfold record
    dsimp only
    split
    · split
      · rw [checked]
        exact inside
      · have bound : target.weightpos ≤ MAXMIN - 1 := Nat.le_pred_of_lt inside
        rw [weightpos_processFirstDegree (by rw [checked]; exact bound)]
        exact lt_of_le_of_lt (min_le_right _ _) (by decide)
    · exact inside
  rcases doload_cases ar now state target with ⟨-, taken⟩ | ⟨-, -, taken⟩ | ⟨-, -, taken⟩
  · rw [taken]
    exact (by decide : 0 < MAXMIN)
  · rw [taken, (loadTimed_target now _ target).1]
    exact inside
  · rw [taken, (loadStable_target ar now _ target).1]
    unfold recheck
    rw [checked]
    exact recorded _

theorem Wellformed.command {start : Daemon F} (wellformed : Wellformed start)
    (command : Command) : Wellformed (runCommand start command) := by
  obtain ⟨current, samples, loglevel, weightpos, counted⟩ := wellformed
  cases command with
  | current number =>
      cases number with
      | none => exact ⟨current, samples, loglevel, weightpos, counted⟩
      | some number =>
          exact ⟨current_setCurrent _ number, samples, loglevel, weightpos, counted⟩
  | hours now number =>
      cases number with
      | none => exact ⟨current, samples, loglevel, weightpos, counted⟩
      | some number =>
          change Wellformed { start with params := setHours now start.params number }
          unfold setHours
          split
          · exact ⟨current, samples, loglevel, weightpos, counted⟩
          · exact ⟨current, samples, loglevel, weightpos, counted⟩
  | loglevel number =>
      cases number with
      | none => exact ⟨current, samples, loglevel, weightpos, counted⟩
      | some number =>
          exact ⟨current, samples, setloglevel_mem loglevel number, weightpos, counted⟩
  | exit => exact ⟨current, samples, loglevel, weightpos, counted⟩
  | other => exact ⟨current, samples, loglevel, weightpos, counted⟩

theorem Wellformed.step {start : Daemon F} (wellformed : Wellformed start)
    (event : DaemonEvent) : Wellformed ((daemon ar).step start event).1 := by
  cases event with
  | command command =>
      change Wellformed (if _ then _ else _ : Daemon F × Option (Round F)).1
      split
      · exact wellformed.command command
      · exact wellformed
  | round now msg reads =>
      unfold daemon
      dsimp only
      split
      swap
      · exact wellformed
      rename_i running
      obtain ⟨current, samples, loglevel, weightpos, counted⟩ := wellformed
      have loaded : (doRound ar now msg reads (eeprom start).2 start.params).1.load =
          prepare ar now (eeprom start).2 start.params := load_doRound
      obtain ⟨_, _, _, _, same⟩ := sameOptions_prepare ar now (eeprom start).2 start.params
      obtain ⟨led, prepared⟩ := prepare_eq ar now (eeprom start).2 start.params
      have inside : (prepare ar now (eeprom start).2 start.params).target.weightpos < MAXMIN := by
        rw [prepared]
        exact weightpos_doload ar now _ weightpos
      rw [loaded]
      refine ⟨?_, ?_, loglevel, inside, ?_⟩
      · rw [same]
        exact current
      · rw [same]
        exact samples
      · rw [same]
        unfold Daemon.running at running
        simp only [Bool.and_eq_true, Bool.or_eq_true, decide_eq_true_eq, beq_iff_eq] at running
        dsimp only
        split
        · rename_i full
          rcases counted with endless | some
          · exact Or.inl endless
          · exact Or.inr some
        · rename_i room
          rcases counted with ⟨endless, few⟩ | some
          · exact Or.inl ⟨endless, by omega⟩
          · exact Or.inr (by omega)

/-- The daemon starts well-formed, whatever the command line. -/
theorem wellformed_start (zero : F) (arguments : List Argument) (state : Bat3) :
    Wellformed (startDaemon zero arguments state) := by
  have current : 0 ≤ (startParams zero arguments).current ∧
      (startParams zero arguments).current ≤ 2000 := by
    refine startParams_invariant (fun params => 0 ≤ params.current ∧ params.current ≤ 2000) zero
      arguments (show 0 ≤ DEFAULT_CURRENT ∧ DEFAULT_CURRENT ≤ 2000 by decide) ?_
      fun _ _ kept => kept
    intro argument _ params next kept taken
    unfold processArgument at taken
    split at taken <;> cases taken
    case h_2 => exact current_setCurrent params _
    case h_4 =>
      unfold setHours
      split
      · exact kept
      · exact kept
    all_goals exact kept
  have samples : -1 ≤ (startParams zero arguments).samples := by
    unfold startParams
    dsimp only
    split
    · exact (by decide : -1 ≤ DEFAULT_SAMPLES)
    · omega
  have weightpos : (startParams zero arguments).weightpos < MAXMIN := by
    rw [(startParams_idle zero arguments).1]
    decide
  refine ⟨current, samples, setloglevel_mem (by decide) _, weightpos, ?_⟩
  by_cases endless : (startParams zero arguments).samples = -1
  · exact Or.inl ⟨endless, Nat.zero_le _⟩
  · refine Or.inr ?_
    change (0 : Int) ≤ (startParams zero arguments).samples
    omega

/-- **The parameters** are well-formed in every turn of the main loop, whatever the command line,
the device and the clients. -/
theorem parameters_wellformed (ar : Arith F) (zero : F) (arguments : List Argument) (state : Bat3)
    (turns : List LoopTurn) :
    let start := startMainLoop (startNet (startDaemon zero arguments state))
    Wellformed ((runArgument ar).run start turns).daemon :=
  (runArgument_refines ar).invariant (fun _ event wellformed => wellformed.step event)
    (wellformed_start zero arguments state) turns

/-! ### The requests -/

/-- A request neither puts the system to sleep nor shuts it down; on batteries it has everything
off, and it charges with the period `MAX_PWM_T`. -/
structure Harmless (request : BAT3request) : Prop where
  alarm : request.alarm = 0
  softJP3 : request.outputs.softJP3 = false
  battery : request.outputs.batRun = true →
    request.outputs.opampEn = false ∧ request.outputs.PWM1en = false ∧
      request.outputs.PWM2en = false ∧ request.outputs._buckEn = true ∧
      request.outputs._offsetEn = true
  period : request.outputs.opampEn = true → request.pwmT = MAX_PWM_T

/-- Charging leaves alone what it does not switch. -/
theorem frame_doload {α : Type} (field : Bat3 → α)
    (apart : ∀ (state : Bat3) pwmLo pwmT pwm1en pwm2en opampEn buckEn offsetEn,
      field { state with pwmLo, pwmT, pwm1en, pwm2en, opampEn, buckEn, offsetEn } = field state)
    (ar : Arith F) (now : Clock) (state : Bat3) (target : Action F) :
    field (doload ar now state target).state = field (softJP3Off state) := by
  rcases doload_cases ar now state target with ⟨-, taken⟩ | ⟨-, -, taken⟩ | ⟨-, -, taken⟩
  · rw [taken]
    exact apart (softJP3Off state) _ _ _ _ _ _ _
  · rw [taken]
    unfold loadTimed
    split
    · exact apart (softJP3Off state) _ _ _ _ _ _ _
    · exact apart (softJP3Off state) _ _ _ _ _ _ _
  · rw [taken]
    unfold loadStable
    dsimp only
    split
    · change field (if _ then _ else _ : Bat3) = _
      split
      · exact apart (softJP3Off state) _ _ _ _ _ _ _
      · rfl
    · change field (loading (if _ then _ else _ : Bat3)) = _
      split
      · exact apart (softJP3Off state) _ _ _ _ _ _ _
      · exact apart (softJP3Off state) _ _ _ _ _ _ _

theorem harmless_round {state : Daemon F} {event : DaemonEvent} {round : Round F}
    (made : ((daemon ar).step state event).2 = some round) : Harmless round.request := by
  obtain ⟨now, msg, reads, _, same, _⟩ := daemon_round made
  obtain ⟨led, prepared⟩ := prepare_eq ar now (eeprom state).2 state.params
  have framed := frame_doload (fun state => (state.batRun, state.softJP3))
    (fun _ _ _ _ _ _ _ _ => rfl) ar now { (eeprom state).2 with led } state.params
  rw [softJP3Off_eq, ← prepared] at framed
  simp only [Prod.mk.injEq] at framed
  obtain ⟨running, jumper⟩ := framed
  rw [same, request_doRound]
  refine ⟨rfl, ?_, fun onBattery => ?_, fun on => ?_⟩
  · change ((prepare ar now (eeprom state).2 state.params).state.softJP3 == OnOff.ON) = false
    rw [jumper]
    rfl
  · have battery := eq_of_beq (show ((prepare ar now (eeprom state).2 state.params).state.batRun ==
      OnOff.ON) = true from onBattery)
    rw [running] at battery
    have taken : doload ar now { (eeprom state).2 with led } state.params =
        loadBattery (softJP3Off { (eeprom state).2 with led }) state.params := if_pos battery
    rw [prepared, taken]
    exact ⟨rfl, rfl, rfl, rfl, rfl⟩
  · exact (charged_prepare (eq_of_beq on)).1

/-- **The requests** of the main loop are harmless, whatever the command line, the device and the
clients. -/
theorem requests_harmless (ar : Arith F) (loop : MainLoop F) (turns : List LoopTurn) :
    ∀ output ∈ (runArgument ar).outputs loop turns, ∀ round, output = some round →
      Harmless round.request := by
  intro output member round made
  have every (state : Daemon F) (event : DaemonEvent) :
      ∀ round ∈ Option.toList ((daemon ar).step state event).2, Harmless round.request :=
    fun round shows => harmless_round (Option.mem_toList.mp shows)
  exact (runArgument_refines ar).observed every loop turns output member round
    (Option.mem_toList.mpr made)

/-- The first turn of the loop, with a device that can be read and says nothing. -/
def firstTurn : LoopTurn :=
  { select := .ready, now := .still 1000, msg := [], reads := [], sys := firstCall }

/-- A daemon that charges asks for the op amp, and one on batteries tells so. -/
theorem requests_harmless_first :
    let charging := (silentRound (chargingStart { Bat3.blank with pwmT := 0x200 }) 1000).request
    let onBatteries := (silentRound (chargingStart { Bat3.blank with batRun := .ON }) 1000).request
    Harmless charging ∧ charging.outputs.opampEn = true ∧ Harmless onBatteries ∧
      onBatteries.outputs.batRun = true := by
  intro charging onBatteries
  refine ⟨?_, by decide +kernel, ?_, by decide +kernel⟩
  · exact requests_harmless Arith.exact (startMainLoop (startNet (chargingStart _))) [firstTurn] _
      List.mem_cons_self _ rfl
  · exact requests_harmless Arith.exact (startMainLoop (startNet (chargingStart _))) [firstTurn] _
      List.mem_cons_self _ rfl

/-! ### The rounds -/

private theorem rounds_eq_length (outputs : List (Option (Round F))) :
    rounds outputs = (outputs.flatMap Option.toList).length := by
  induction outputs with
  | nil => rfl
  | cons output outputs ih =>
      unfold rounds at ih ⊢
      rw [List.countP_cons, List.flatMap_cons, List.length_append, ih, add_comm]
      cases output with
      | none => rfl
      | some round => rfl

private theorem running_iff (daemon : Daemon F) :
    daemon.running = true ↔ daemon.swContinue = true ∧
      (daemon.params.samples = -1 ∨ (daemon.cntsamples : Int) < daemon.params.samples) := by
  unfold Daemon.running
  simp only [Bool.and_eq_true, Bool.or_eq_true, decide_eq_true_eq, beq_iff_eq]
  rw [and_comm, or_comm]

/-- The number of samples that is asked for does not change, and every round counts. -/
structure Counts (samples : Int) (made : Nat) (daemon : Daemon F) : Prop where
  asked : daemon.params.samples = samples
  counted : samples = -1 ∨ daemon.cntsamples = made

theorem Counts.command {samples : Int} {made : Nat} {start : Daemon F}
    (counts : Counts samples made start) (command : Command) :
    Counts samples made (runCommand start command) := by
  obtain ⟨asked, counted⟩ := counts
  cases command with
  | current number => cases number <;> exact ⟨asked, counted⟩
  | hours now number =>
      cases number with
      | none => exact ⟨asked, counted⟩
      | some number =>
          change Counts samples made { start with params := setHours now start.params number }
          unfold setHours
          split
          · exact ⟨asked, counted⟩
          · exact ⟨asked, counted⟩
  | loglevel number => cases number <;> exact ⟨asked, counted⟩
  | exit => exact ⟨asked, counted⟩
  | other => exact ⟨asked, counted⟩

theorem Counts.step {samples : Int} {made : Nat} {start : Daemon F}
    (counts : Counts samples made start) (event : DaemonEvent) :
    Counts samples (made + (Option.toList ((daemon ar).step start event).2).length)
      ((daemon ar).step start event).1 := by
  cases event with
  | command command =>
      unfold daemon
      dsimp only
      split
      · exact counts.command command
      · exact counts
  | round now msg reads =>
      unfold daemon
      dsimp only
      split
      swap
      · exact counts
      obtain ⟨asked, counted⟩ := counts
      have loaded : (doRound ar now msg reads (eeprom start).2 start.params).1.load =
          prepare ar now (eeprom start).2 start.params := load_doRound
      obtain ⟨_, _, _, _, same⟩ := sameOptions_prepare ar now (eeprom start).2 start.params
      rw [loaded]
      refine ⟨?_, ?_⟩
      · rw [same]
        exact asked
      · by_cases endless : samples = -1
        · exact Or.inl endless
        · refine Or.inr ?_
          dsimp only
          rw [asked, if_neg fun both => endless both.1, counted.resolve_left endless]
          rfl

/-- The rounds of the main loop are counted. -/
theorem counts_run (ar : Arith F) (zero : F) (arguments : List Argument) (state : Bat3)
    (turns : List LoopTurn) :
    let start := startMainLoop (startNet (startDaemon zero arguments state))
    Counts (startParams zero arguments).samples (rounds ((runArgument ar).outputs start turns))
      ((runArgument ar).run start turns).daemon := by
  intro start
  obtain ⟨events, reached, made⟩ := (runArgument_refines ar).run start turns
  rw [reached, rounds_eq_length, made, ← rounds_eq_length]
  apply Machine.outputs_invariant (daemon ar)
    (fun past daemon => Counts (startParams zero arguments).samples (rounds past) daemon)
    (fun _ => True)
  · intro past state event counts _
    rw [rounds_eq_length] at counts ⊢
    rw [List.flatMap_append, List.length_append, List.flatMap_singleton]
    exact counts.step event
  · exact ⟨rfl, Or.inr rfl⟩
  · exact fun _ _ => trivial

/-- A turn of a daemon that has been ended leaves it so. -/
theorem continues_of_turn {loop : MainLoop F} {turn : LoopTurn}
    (goesOn : ((runArgument ar).step loop turn).1.daemon.swContinue = true) :
    loop.daemon.swContinue = true := by
  by_contra ended
  have stopped : ¬ loop.running = true := fun running =>
    ended ((running_iff _).mp (Bool.and_eq_true_iff.mp running).2).1
  have still : (runArgument ar).step loop turn = (loop, none) := if_neg stopped
  rw [still] at goesOn
  exact ended goesOn

/-- A turn in which the device can be read makes a round while the loop runs. -/
theorem rounds_turn {loop : MainLoop F} {turn : LoopTurn} (ready : turn.select = .ready) :
    (Option.toList ((runArgument ar).step loop turn).2).length =
      if loop.running = true then 1 else 0 := by
  by_cases running : loop.running = true
  · obtain ⟨round, made⟩ := Option.ne_none_iff_exists'.mp
      ((@daemon_makes_round F ar loop.daemon turn.now turn.msg turn.reads).mpr
        (Bool.and_eq_true_iff.mp running).2)
    have turned : deviceTurn ar loop.daemon turn =
        (daemon ar).step loop.daemon (.round turn.now turn.msg turn.reads) := if_pos ready
    rw [step_turn running (by rw [ready]; decide), turned, made, if_pos running]
    rfl
  · have still : (runArgument ar).step loop turn = (loop, none) := if_neg running
    rw [still, if_neg running]
    rfl

/-- The loop has returned early when a call of `select` has failed while it ran. -/
theorem failed_iff (start : MainLoop F) (turns : List LoopTurn) :
    ((runArgument ar).run start turns).failed = true ↔ start.failed = true ∨
      ∃ taken ∈ (runArgument ar).trace start turns,
        taken.event.select = .failed ∧ taken.before.running = true := by
  induction turns generalizing start with
  | nil => exact ⟨Or.inl, fun either => either.resolve_right fun ⟨_, member, _⟩ => nomatch member⟩
  | cons turn turns ih =>
      have stepped : ((runArgument ar).step start turn).1.failed = true ↔
          start.failed = true ∨ turn.select = .failed ∧ start.running = true := by
        by_cases running : start.running = true
        · by_cases failed : turn.select = .failed
          · rw [step_failed running failed]
            exact ⟨fun _ => Or.inr ⟨failed, running⟩, fun _ => rfl⟩
          · rw [step_turn running failed]
            exact (or_iff_left fun both => failed both.1).symm
        · have still : (runArgument ar).step start turn = (start, none) := if_neg running
          rw [still]
          exact (or_iff_left fun both => running both.2).symm
      rw [Machine.run_cons, ih, stepped, Machine.trace_cons, List.exists_mem_cons_iff, or_assoc]
      rfl

/-- **The rounds are counted.** The main loop goes on until `select` fails, a client ends it or the
rounds that are asked for have been made; a device that can always be read gets one in every
turn. -/
theorem rounds_counted (ar : Arith F) (zero : F) (arguments : List Argument) (state : Bat3)
    (turns : List LoopTurn) :
    let samples := (startParams zero arguments).samples
    let start := startMainLoop (startNet (startDaemon zero arguments state))
    let made := rounds ((runArgument ar).outputs start turns)
    let loop := (runArgument ar).run start turns
    (loop.running = true ↔ loop.failed = false ∧ loop.daemon.swContinue = true ∧
        (samples = -1 ∨ (made : Int) < samples)) ∧
      (loop.failed = true ↔ ∃ taken ∈ (runArgument ar).trace start turns,
        taken.event.select = .failed ∧ taken.before.running = true) ∧
      (samples ≠ -1 → (made : Int) ≤ samples) ∧
      ((∀ turn ∈ turns, turn.select = .ready) → loop.daemon.swContinue = true →
        (made : Int) =
          if samples = -1 then (turns.length : Int) else min samples turns.length) := by
  intro samples start made loop
  have bounded : -1 ≤ samples := (wellformed_start zero arguments state).samples
  have runs (turns : List LoopTurn) : ((runArgument ar).run start turns).running = true ↔
      ((runArgument ar).run start turns).failed = false ∧
      ((runArgument ar).run start turns).daemon.swContinue = true ∧ (samples = -1 ∨
        (rounds ((runArgument ar).outputs start turns) : Int) < samples) := by
    obtain ⟨asked, counted⟩ := counts_run ar zero arguments state turns
    unfold MainLoop.running
    rw [Bool.and_eq_true, Bool.not_eq_true', running_iff, asked]
    refine and_congr_right fun _ => and_congr_right fun _ => or_congr_right' fun ends => ?_
    rw [counted.resolve_left ends]
  have fails (turns : List LoopTurn) := @failed_iff F ar start turns
  simp only [show start.failed = false from rfl, Bool.false_eq_true, false_or] at fails
  refine ⟨runs turns, fails turns, fun ends => ?_, ?_⟩
  · obtain ⟨asked, counted⟩ := counts_run ar zero arguments state turns
    have full := (parameters_wellformed ar zero arguments state turns).counted
    rw [asked, counted.resolve_left ends] at full
    exact (full.resolve_left fun endless => ends endless.1)
  · change _ → ((runArgument ar).run start turns).daemon.swContinue = true →
      (rounds ((runArgument ar).outputs start turns) : Int) = _
    clear made loop
    induction turns using List.reverseRecOn with
    | nil =>
        intro _ _
        change (0 : Int) = if samples = -1 then ((0 : Nat) : Int) else min samples ((0 : Nat) : Int)
        split
        · rfl
        · omega
    | append_singleton turns turn ih =>
        intro ready goesOn
        rw [Machine.run_append] at goesOn
        have went := continues_of_turn goesOn
        have early := fun other member => ready other (List.mem_append_left _ member)
        have before := ih early went
        have turned := @rounds_turn F ar ((runArgument ar).run start turns) turn
          (ready turn (List.mem_append_right _ List.mem_cons_self))
        have grown : rounds ((runArgument ar).outputs start (turns ++ [turn])) =
            rounds ((runArgument ar).outputs start turns) +
              if ((runArgument ar).run start turns).running = true then 1 else 0 := by
          rw [rounds_eq_length, rounds_eq_length]
          rw [Machine.outputs_append_singleton, List.flatMap_append, List.length_append,
            List.flatMap_singleton, turned]
        have stays : ((runArgument ar).run start turns).failed = false := by
          rw [← Bool.not_eq_true, fails]
          rintro ⟨taken, member, failed, -⟩
          rw [early _ (Machine.event_mem _ member)] at failed
          exact absurd failed (by decide)
        rw [grown, List.length_append, List.length_singleton]
        have running := (runs turns).trans ((and_iff_right stays).trans (and_iff_right went))
        by_cases more : ((runArgument ar).run start turns).running = true
        · rw [if_pos more]
          have room := running.mp more
          split at before <;> split <;> omega
        · rw [if_neg more]
          have closed := mt running.mpr more
          split at before <;> split <;> omega

end MainLoop

end TsBat3

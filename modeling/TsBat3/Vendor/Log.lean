import TsBat3.Foundation.Batches
import TsBat3.Vendor.Seconds

/-! # The log of the charging daemon

While a receiver is set the daemon sends a packet for every second that is over, and no other: it is
stamped with the second, and what it shows of the battery and of the low time lies between what the
replies of the second have shown, of which up to 32 are looked at
(`TsBat3.seconds_logged`). This holds although `smoothAverage` leaves out other samples than the
extremes.
-/

namespace TsBat3

/-! ### Averages -/

private theorem foldl_average (arr : Nat → ℚ) (places : List Nat) (Sum : ℚ) (n : Nat) :
    places.foldl (fun (Sum, n) j => (Sum + arr j, n + 1)) (Sum, n) =
      (Sum + (places.map arr).sum, n + places.length) := by
  induction places generalizing Sum n with
  | nil => simp
  | cons place places ih =>
      rw [List.foldl_cons, ih, List.map_cons, List.sum_cons, List.length_cons, add_assoc]
      congr 1
      omega

/-- The average is the mean of the first cells. -/
theorem average_eq (arr : Nat → ℚ) (count : Nat) :
    average arr count = (cells arr count).sum / count := by
  unfold average
  split
  · rename_i none
    rw [none, Nat.cast_zero, div_zero]
  · rw [foldl_average, zero_add, zero_add, List.length_range]
    rfl

private theorem foldl_kept (arr : Nat → ℚ) (keep : Nat → Prop) [DecidablePred keep]
    (places : List Nat) (Sum : ℚ) (n : Nat) :
    places.foldl (fun (Sum, n) j => if keep j then (Sum + arr j, n + 1) else (Sum, n)) (Sum, n) =
      (Sum + ((places.filter keep).map arr).sum, n + (places.filter keep).length) := by
  induction places generalizing Sum n with
  | nil => simp
  | cons place places ih =>
      rw [List.foldl_cons]
      dsimp only
      by_cases kept : keep place
      · rw [if_pos kept, ih, List.filter_cons, if_pos (decide_eq_true kept), List.map_cons,
          List.sum_cons, List.length_cons, add_assoc]
        congr 1
        omega
      · rw [if_neg kept, ih, List.filter_cons, if_neg (mt of_decide_eq_true kept)]

/-- Two numbers leave one of the first three places. -/
theorem exists_kept (minI maxI : ℚ) {count : Nat} (many : 3 ≤ count) :
    (List.range count).filter (fun j : Nat => (j : ℚ) ≠ minI ∧ (j : ℚ) ≠ maxI) ≠ [] := by
  intro none
  have out (place : Nat) (inside : place < 3) : (place : ℚ) = minI ∨ (place : ℚ) = maxI := by
    by_contra kept
    have member := List.filter_eq_nil_iff.mp none place (List.mem_range.mpr (by omega))
    exact member (decide_eq_true (not_or.mp kept))
  have first := out 0 (by decide)
  have second := out 1 (by decide)
  have third := out 2 (by decide)
  push_cast at first second third
  -- two of the three places would be the same number
  rcases first with zero | zero <;> rcases second with one | one <;>
    rcases third with two | two <;> linarith

/-- **The smoothed average** lies between the samples, whichever of them it leaves out. -/
theorem between_smoothAverage (arr : Nat → ℚ) {count : Nat} (some : 0 < count) :
    Between (cells arr count) (smoothAverage arr count) := by
  unfold smoothAverage
  rw [if_neg some.ne']
  split
  · rename_i one
    intro low high bounds
    exact bounds (arr 0) (one ▸ List.mem_cons_self)
  split
  · rename_i two
    rw [two]
    have mean : Between (cells arr 2) ((arr 0 + (arr 1 + 0)) / (2 : Nat)) :=
      between_mean (List.cons_ne_nil _ _)
    rwa [add_zero, Nat.cast_ofNat] at mean
  · rename_i one two
    dsimp only
    rw [foldl_kept, zero_add, zero_add]
    generalize (List.range' 1 (count - 1)).foldl _ _ = found
    have kept := exists_kept found.minI found.maxI (show 3 ≤ count by omega)
    have mean := between_mean (mt (List.map_eq_nil_iff (f := arr)).mp kept)
    rw [List.length_map] at mean
    exact mean.mono fun sample member => by
      obtain ⟨place, inside, rfl⟩ := List.mem_map.mp member
      exact List.mem_map_of_mem (List.mem_of_mem_filter inside)

/-- Rounding towards 0 does not leave the integers that a number lies between. -/
theorem truncate_between {readings : List Int} {value : ℚ}
    (between : Between (readings.map fun reading : Int => (reading : ℚ)) value) :
    Between readings (truncate value) := by
  intro low high bounds
  obtain ⟨above, below⟩ := between low high fun cast member => by
    obtain ⟨reading, inside, rfl⟩ := List.mem_map.mp member
    exact ⟨Int.cast_le.mpr (bounds reading inside).1, Int.cast_le.mpr (bounds reading inside).2⟩
  unfold truncate
  split
  · exact ⟨Int.le_floor.mpr above, Int.cast_le.mp ((Int.floor_le value).trans below)⟩
  · exact ⟨Int.cast_le.mp (above.trans (Int.le_ceil value)), Int.ceil_le.mpr below⟩

/-! ### Samples -/

/-- The state has taken samples of the replies, in order. -/
structure Samples (replies : List BAT3reply) (state : BAT3chargeState) : Prop where
  count : state.numSamples = replies.length
  V : cells state.V replies.length = replies.map fun rep => battV rep.adc6
  I : cells state.I replies.length = replies.map fun rep => (battI rep.adc7 : ℚ)
  T : cells state.T replies.length = replies.map fun rep => tempF (rep.temp - 7)
  pwm : cells state.pwm replies.length = replies.map fun rep => (rep.pwmLo.toNat : ℚ)

theorem Samples.empty {state : BAT3chargeState} (none : state.numSamples = 0) :
    Samples [] state := ⟨none, rfl, rfl, rfl, rfl⟩

/-- **Another sample**, of a reply for which there is room. -/
theorem Samples.add {replies : List BAT3reply} {state : BAT3chargeState}
    (samples : Samples (replies.take MAXSAMPLES) state) (rep : BAT3reply) :
    Samples ((replies ++ [rep]).take MAXSAMPLES) (addSample state rep) := by
  obtain ⟨count, V, I, T, pwm⟩ := samples
  unfold addSample
  by_cases room : replies.length < MAXSAMPLES
  · rw [List.take_of_length_le room.le] at count V I T pwm
    have next : (replies ++ [rep]).length ≤ MAXSAMPLES := by
      rw [List.length_append]
      exact room
    rw [List.take_of_length_le next, if_pos (by omega)]
    refine ⟨?_, ?_, ?_, ?_, ?_⟩
    · rw [List.length_append, ← count]
      rfl
    all_goals
      dsimp only
      rw [List.length_append, List.length_singleton, count, cells_update, List.map_append]
    · rw [V]
      rfl
    · rw [I]
      rfl
    · rw [T]
      rfl
    · rw [pwm]
      rfl
  · have full : MAXSAMPLES ≤ replies.length := not_lt.mp room
    rw [List.take_append_of_le_length full, if_neg]
    · exact ⟨count, V, I, T, pwm⟩
    · rw [count, List.length_take]
      omega

/-- What the log is made of. -/
def BAT3chargeState.log (state : BAT3chargeState) :
    Time × Nat × (Nat → ℚ) × (Nat → ℚ) × (Nat → ℚ) × (Nat → ℚ) :=
  (state.lastT, state.numSamples, state.V, state.I, state.T, state.pwm)

theorem Samples.of_log {replies : List BAT3reply} {state next : BAT3chargeState}
    (samples : Samples replies state) (same : next.log = state.log) : Samples replies next := by
  simp only [BAT3chargeState.log, Prod.mk.injEq] at same
  obtain ⟨-, count, V, I, T, pwm⟩ := same
  exact ⟨count.trans samples.count, V ▸ samples.V, I ▸ samples.I, T ▸ samples.T,
    pwm ▸ samples.pwm⟩

/-- A packet shows the mean of the low times, and of the battery what lies between the samples. -/
structure Summarises (replies : List BAT3reply) (info : Bat3Info) : Prop where
  pwmlo : info.pwmlo = (replies.map fun rep => (rep.pwmLo.toNat : ℚ)).sum / replies.length
  battV : Between (replies.map fun rep => battV rep.adc6) info.battV
  battI : Between (replies.map fun rep => battI rep.adc7) info.battI
  tempF : Between (replies.map fun rep => tempF (rep.temp - 7)) info.tempF

theorem Samples.summarised {replies : List BAT3reply} {state : BAT3chargeState}
    (samples : Samples replies state) (some : replies ≠ []) (rep : BAT3reply) :
    Summarises replies (logInfo state rep) := by
  obtain ⟨count, V, I, T, pwm⟩ := samples
  have positive : 0 < replies.length := List.length_pos_iff.mpr some
  have smoothed (arr : Nat → ℚ) := between_smoothAverage arr positive
  refine ⟨?_, ?_, ?_, ?_⟩
  · change average state.pwm state.numSamples = _
    rw [count, average_eq, pwm]
  · change Between _ (smoothAverage state.V state.numSamples)
    rw [count, ← V]
    exact smoothed state.V
  · change Between _ (truncate (smoothAverage state.I state.numSamples))
    apply truncate_between
    rw [count, List.map_map]
    change Between (replies.map fun rep => (battI rep.adc7 : ℚ)) _
    rw [← I]
    exact smoothed state.I
  · change Between _ (smoothAverage state.T state.numSamples)
    rw [count, ← T]
    exact smoothed state.T

/-! ### Turns -/

/-- The socket of the log's receiver after some turns, -1 while there is none. -/
def receiver (events : List ChargeEvent) : Int :=
  events.foldl (fun socket event =>
    match event.command with
    | some (.cmd1 socket) => socket
    | some .cmd2 => -1
    | _ => socket) (-1)

/-- The replies that have been sampled in the second that some turns end in. -/
def sampled (events : List ChargeEvent) : List BAT3reply :=
  (((batches ChargeEvent.t events).getLastD []).map ChargeEvent.rep).take MAXSAMPLES

/-- The log after some turns. -/
structure Logging (events : List ChargeEvent) (state : BAT3chargeState) : Prop where
  lastT : ∀ last ∈ events.getLast?, state.lastT = last.t
  samples : Samples (sampled events) state

theorem Logging.of_log {events : List ChargeEvent} {state next : BAT3chargeState}
    (logging : Logging events state) (same : next.log = state.log) : Logging events next where
  lastT last ends := (congrArg Prod.fst same).trans (logging.lastT last ends)
  samples := logging.samples.of_log same

theorem log_dutyTick (state : BAT3chargeState) :
    (dutyTick state).log = state.log ∧ (dutyTick state).txSocket = state.txSocket := by
  unfold dutyTick
  dsimp only
  split
  · split
    · split
      · exact ⟨rfl, rfl⟩
      · exact ⟨rfl, rfl⟩
    · exact ⟨rfl, rfl⟩
  · split
    · split
      · exact ⟨rfl, rfl⟩
      · exact ⟨rfl, rfl⟩
    · exact ⟨rfl, rfl⟩

theorem log_updatePwm (state : BAT3chargeState) (req : BAT3request) (rep : BAT3reply) :
    (updatePwm state req rep).1.log = state.log ∧
      (updatePwm state req rep).1.txSocket = state.txSocket := by
  obtain ⟨targetI, locked, lockHi, lockLo, updated, -⟩ := updatePwm_spec state req rep
  rw [updated]
  exact ⟨rfl, rfl⟩

theorem log_command (state : BAT3chargeState) (event : ChargeEvent) :
    (BAT3UDPcommandCheck state event.command).log = state.log ∧
      ∀ events, state.txSocket = receiver events →
        (BAT3UDPcommandCheck state event.command).txSocket = receiver (events ++ [event]) := by
  have aimed (targetI : Int) : (retarget state targetI).log = state.log ∧
      (retarget state targetI).txSocket = state.txSocket := by
    unfold retarget
    dsimp only
    split
    · exact ⟨rfl, rfl⟩
    · exact ⟨rfl, rfl⟩
  unfold receiver
  simp only [List.foldl_concat]
  cases event.command with
  | none => exact ⟨rfl, fun _ set => set⟩
  | some command =>
      cases command with
      | cmd1 socket => exact ⟨rfl, fun _ _ => rfl⟩
      | cmd2 => exact ⟨rfl, fun _ _ => rfl⟩
      | cmd3 targetI => exact ⟨(aimed targetI).1, fun _ set => (aimed targetI).2.trans set⟩
      | cmd4 targetI timeOn timeOff =>
          exact ⟨(aimed targetI).1, fun _ set => (aimed targetI).2.trans set⟩
      | other => exact ⟨rfl, fun _ set => set⟩

/-- A second that goes on. -/
theorem nextSecond_same {state : BAT3chargeState} {t : Time} (same : t = state.lastT)
    (rep : BAT3reply) : nextSecond state rep t = (state, none) :=
  if_neg (not_not.mpr same)

/-- A second that begins: the samples are sent, if there are any and a receiver, and thrown away. -/
theorem nextSecond_other {state : BAT3chargeState} {t : Time} (other : t ≠ state.lastT)
    (rep : BAT3reply) :
    (nextSecond state rep t).1.lastT = t ∧ (nextSecond state rep t).1.numSamples = 0 ∧
      (nextSecond state rep t).1.txSocket = state.txSocket ∧
      (nextSecond state rep t).2 =
        if state.numSamples > 0 ∧ state.txSocket > -1 then some (logInfo state rep) else none := by
  have ticked (next : BAT3chargeState) (empty : next.numSamples = 0)
      (set : next.txSocket = state.txSocket) (info : Option Bat3Info) :
      let result := if !rep.outputs.batRun then (dutyTick { next with lastT := t }, info)
        else ({ next with lastT := t }, info)
      result.1.lastT = t ∧ result.1.numSamples = 0 ∧ result.1.txSocket = state.txSocket ∧
        result.2 = info := by
    intro result
    obtain ⟨log, socket⟩ := log_dutyTick { next with lastT := t }
    simp only [BAT3chargeState.log, Prod.mk.injEq] at log
    unfold result
    split
    · exact ⟨log.1, log.2.1.trans empty, socket.trans set, rfl⟩
    · exact ⟨rfl, empty, set, rfl⟩
  unfold nextSecond
  rw [if_pos other]
  by_cases some : state.numSamples > 0
  · rw [if_pos some]
    simp only [some, true_and]
    exact ticked { state with numSamples := 0 } rfl rfl _
  · rw [if_neg some]
    simp only [some, false_and, if_false]
    exact ticked state (by omega) rfl none

/-- What a turn samples of its second. -/
theorem sampled_same {events : List ChargeEvent} {last event : ChargeEvent}
    (ends : events.getLast? = some last) (same : event.t = last.t) :
    ∃ replies, sampled events = replies.take MAXSAMPLES ∧
      sampled (events ++ [event]) = (replies ++ [event.rep]).take MAXSAMPLES := by
  have some : events ≠ [] := List.ne_nil_of_mem (List.mem_of_mem_getLast? ends)
  obtain ⟨front, second, split, -⟩ := exists_last_batch ChargeEvent.t some
  have joined : batches ChargeEvent.t (events ++ [event]) = front ++ [second ++ [event]] := by
    apply batches_concat_same split
    intro final member
    rw [ends] at member
    rw [← Option.some.inj member, same]
  refine ⟨second.map ChargeEvent.rep, ?_, ?_⟩
  · rw [sampled, split, List.getLastD_concat]
  · rw [sampled, joined, List.getLastD_concat, List.map_append]
    rfl

private theorem sampled_other {events : List ChargeEvent} {event : ChargeEvent}
    (other : ∀ last ∈ events.getLast?, last.t ≠ event.t) :
    sampled (events ++ [event]) = [event.rep] := by
  rw [sampled, batches_concat_other other, List.getLastD_concat]
  rfl

private theorem sampled_eq_nil {events : List ChargeEvent} : sampled events = [] ↔ events = [] := by
  constructor
  · intro none
    by_contra some
    obtain ⟨front, second, split, ends⟩ := exists_last_batch ChargeEvent.t some
    rw [sampled, split, List.getLastD_concat, List.take_eq_nil_iff, List.map_eq_nil_iff] at none
    rw [none.resolve_left (by decide)] at ends
    exact some (List.getLast?_eq_none_iff.mp ends.symm)
  · rintro rfl
    rfl

/-- What the clock leaves to be sampled. -/
theorem Logging.clock {events : List ChargeEvent} {state : BAT3chargeState}
    (logging : Logging events state) (event : ChargeEvent) :
    (nextSecond state event.rep event.t).1.lastT = event.t ∧
      ∃ replies, Samples (replies.take MAXSAMPLES) (nextSecond state event.rep event.t).1 ∧
        sampled (events ++ [event]) = (replies ++ [event.rep]).take MAXSAMPLES := by
  obtain ⟨lastT, samples⟩ := logging
  by_cases goesOn : ∃ last ∈ events.getLast?, last.t = event.t
  · obtain ⟨last, ends, same⟩ := goesOn
    have clock : event.t = state.lastT := (lastT last ends).trans same |>.symm
    obtain ⟨replies, before, after⟩ := sampled_same ends same.symm
    rw [nextSecond_same clock]
    exact ⟨clock.symm, replies, before ▸ samples, after⟩
  · have other : ∀ last ∈ events.getLast?, last.t ≠ event.t :=
      fun last ends same => goesOn ⟨last, ends, same⟩
    have after := sampled_other other
    by_cases clock : event.t = state.lastT
    · have none : events = [] := by
        by_contra some
        obtain ⟨last, ends⟩ := Option.ne_none_iff_exists'.mp
          (mt List.getLast?_eq_none_iff.mp some)
        exact other last ends ((lastT last ends).symm.trans clock.symm)
      rw [sampled_eq_nil.mpr none] at samples
      rw [nextSecond_same clock]
      exact ⟨clock.symm, [], samples, after⟩
    · obtain ⟨time, empty, -⟩ := nextSecond_other clock event.rep
      exact ⟨time, [], Samples.empty empty, after⟩

/-- **A turn of the log**: the reply is sampled in its second. -/
theorem Logging.turn {events : List ChargeEvent} {state : BAT3chargeState}
    (logging : Logging events state) (event : ChargeEvent) :
    Logging (events ++ [event]) (listen state event).1 := by
  have commanded := logging.of_log (log_command state event).1
  obtain ⟨time, replies, before, after⟩ := commanded.clock event
  obtain ⟨pwm, V, I, T, numSamples, added⟩ := addSample_eq
    (nextSecond (BAT3UDPcommandCheck state event.command) event.rep event.t).1 event.rep
  change Logging _ (addSample (nextSecond (BAT3UDPcommandCheck state event.command) event.rep
    event.t).1 event.rep)
  refine ⟨fun last ends => ?_, after ▸ before.add event.rep⟩
  rw [List.getLast?_concat] at ends
  rw [added, ← Option.some.inj ends]
  exact time

/-- The receiver after a turn. -/
theorem socket_turn {events : List ChargeEvent} {state : BAT3chargeState}
    (set : state.txSocket = receiver events) (event : ChargeEvent) :
    (listen state event).1.txSocket = receiver (events ++ [event]) := by
  rw [← (log_command state event).2 events set]
  obtain ⟨pwm, V, I, T, numSamples, added⟩ := addSample_eq
    (nextSecond (BAT3UDPcommandCheck state event.command) event.rep event.t).1 event.rep
  change (addSample (nextSecond (BAT3UDPcommandCheck state event.command) event.rep event.t).1
    event.rep).txSocket = _
  rw [added]
  dsimp only
  by_cases clock : event.t = (BAT3UDPcommandCheck state event.command).lastT
  · rw [nextSecond_same clock]
  · exact (nextSecond_other clock event.rep).2.2.1

/-- No packet is sent while a second goes on. -/
theorem Logging.silent {events : List ChargeEvent} {state : BAT3chargeState}
    (logging : Logging events state) {event : ChargeEvent}
    (goesOn : ∀ last ∈ events.getLast?, last.t = event.t) : (listen state event).2 = none := by
  have commanded := logging.of_log (log_command state event).1
  change (nextSecond (BAT3UDPcommandCheck state event.command) event.rep event.t).2 = none
  by_cases clock : event.t = (BAT3UDPcommandCheck state event.command).lastT
  · rw [nextSecond_same clock]
  · have none : events = [] := by
      by_contra some
      obtain ⟨last, ends⟩ := Option.ne_none_iff_exists'.mp (mt List.getLast?_eq_none_iff.mp some)
      exact clock ((goesOn last ends).symm.trans (commanded.lastT last ends).symm)
    have empty := commanded.samples.count
    rw [sampled_eq_nil.mpr none] at empty
    rw [(nextSecond_other clock event.rep).2.2.2, if_neg fun both => both.1.ne' empty]

/-- A packet of the log is stamped with a second, and summarises what has been sampled of it. -/
structure LogsSecond (second : List ChargeEvent) (info : Bat3Info) : Prop where
  stamp : ∀ event ∈ second, event.t = info.t
  summarises : Summarises ((second.map ChargeEvent.rep).take MAXSAMPLES) info

/-- A packet is sent when a second is over. -/
theorem Logging.packet {events : List ChargeEvent} {state : BAT3chargeState}
    (logging : Logging events state) (set : state.txSocket = receiver events)
    {event last : ChargeEvent} (ends : events.getLast? = some last) (other : last.t ≠ event.t)
    (listened : -1 < receiver (events ++ [event])) :
    ∃ front second info, batches ChargeEvent.t events = front ++ [second] ∧
      (listen state event).2 = some info ∧ LogsSecond second info := by
  obtain ⟨log, socket⟩ := log_command state event
  have commanded := logging.of_log log
  have time := commanded.lastT last ends
  have some : events ≠ [] := List.ne_nil_of_mem (List.mem_of_mem_getLast? ends)
  have filled : sampled events ≠ [] := mt sampled_eq_nil.mp some
  obtain ⟨front, second, split, final⟩ := exists_last_batch ChargeEvent.t some
  have summary := commanded.samples.summarised filled event.rep
  rw [sampled, split, List.getLastD_concat] at summary
  refine ⟨front, second, logInfo (BAT3UDPcommandCheck state event.command) event.rep, split, ?_,
    fun turn member => ?_, summary⟩
  · change (nextSecond (BAT3UDPcommandCheck state event.command) event.rep event.t).2 = _
    rw [(nextSecond_other (fun same => other (time.symm.trans same.symm)) event.rep).2.2.2, if_pos]
    refine ⟨?_, (socket events set).symm ▸ listened⟩
    rw [commanded.samples.count]
    exact List.length_pos_iff.mpr filled
  · have inside : last ∈ second := List.mem_of_mem_getLast? (final.trans ends)
    have same : turn.t = last.t :=
      key_batch (split ▸ List.mem_append_right _ List.mem_cons_self) turn member last inside
    exact same.trans time.symm

/-! ### Runs -/

section Runs

variable (shutdelay : Int) (samples : Nat → ℚ) (req : BAT3request) (targetI on off : Int)

/-- The log after a run. -/
theorem logging_run (events : List ChargeEvent) :
    let state := ((BAT3BatteryCharge shutdelay).run (startCharge samples req targetI on off)
      events).state
    Logging events state ∧ state.txSocket = receiver events := by
  induction events using List.reverseRecOn with
  | nil => exact ⟨⟨fun last ends => absurd ends (Option.some_ne_none last).symm, .empty rfl⟩, rfl⟩
  | append_singleton events event ih =>
      rw [Machine.run_append, Machine.run_cons, Machine.run_nil]
      generalize (BAT3BatteryCharge shutdelay).run (startCharge samples req targetI on off) events =
        loop at ih ⊢
      obtain ⟨logging, set⟩ := ih
      obtain ⟨log, socket⟩ := log_updatePwm (listen loop.state event).1
        (BAT3requestInitFromReply event.rep loop.req) event.rep
      exact ⟨(logging.turn event).of_log log, socket.trans (socket_turn set event)⟩

/-- **Every second is logged once.** While a receiver is set the packets of a run are those of its
seconds, in order, but for the one that it ends in. -/
theorem seconds_logged (events : List ChargeEvent)
    (listened : ∀ turns, turns <+: events → 1 < turns.length → -1 < receiver turns) :
    List.Forall₂ LogsSecond (batches ChargeEvent.t events).dropLast
      (((BAT3BatteryCharge shutdelay).outputs (startCharge samples req targetI on off)
        events).filterMap ChargeTurn.info) := by
  induction events using List.reverseRecOn with
  | nil => exact List.Forall₂.nil
  | append_singleton events event ih =>
      have logged := ih fun turns inside => listened turns (inside.trans (List.prefix_append _ _))
      obtain ⟨logging, set⟩ := logging_run shutdelay samples req targetI on off events
      have info : ((BAT3BatteryCharge shutdelay).step ((BAT3BatteryCharge shutdelay).run
          (startCharge samples req targetI on off) events) event).2.info =
        (listen ((BAT3BatteryCharge shutdelay).run (startCharge samples req targetI on off)
          events).state event).2 := rfl
      rw [Machine.outputs_append_singleton, List.filterMap_append, List.filterMap_cons, info]
      by_cases goesOn : ∀ last ∈ events.getLast?, last.t = event.t
      · rw [logging.silent goesOn, dropLast_batches_same goesOn]
        exact (List.append_nil _).symm ▸ logged
      · obtain ⟨last, ends, other⟩ : ∃ last ∈ events.getLast?, last.t ≠ event.t := by
          by_contra none
          exact goesOn fun last ends => not_not.mp fun other => none ⟨last, ends, other⟩
        have ended : ∀ final ∈ events.getLast?, final.t ≠ event.t := fun final member =>
          Option.mem_unique ends member ▸ other
        have later : 1 < (events ++ [event]).length := by
          rw [List.length_append]
          exact Nat.succ_lt_succ (List.length_pos_of_mem (List.mem_of_mem_getLast? ends))
        obtain ⟨front, second, packet, split, sent, second_logged⟩ :=
          logging.packet set ends other (listened _ List.prefix_rfl later)
        rw [split, List.dropLast_concat] at logged
        rw [sent, dropLast_batches_other ended, split]
        exact List.rel_append logged (List.Forall₂.cons second_logged List.Forall₂.nil)

end Runs

/-- Three seconds, of which the first two are over. A receiver is set in the first turn. -/
def sampleLog : List ChargeEvent :=
  [{ sampleSecond 1 with command := some (.cmd1 5) }, sampleSecond 1, sampleSecond 2,
    sampleSecond 3]

theorem seconds_logged_sample :
    List.Forall₂ LogsSecond (batches ChargeEvent.t sampleLog).dropLast
      (((BAT3BatteryCharge 300).outputs sampleCharge sampleLog).filterMap ChargeTurn.info) :=
  seconds_logged 300 _ _ 12000 60 60 sampleLog fun turns inside =>
    (by decide : ∀ turns ∈ sampleLog.inits, 1 < turns.length → -1 < receiver turns) turns
      ((List.mem_inits _ _).mpr inside)

end TsBat3

import TsBat3.Foundation.Machine
import TsBat3.Message.Layout
import TsBat3.Charger.Load
import Mathlib.Data.Rat.Floor

/-! # The vendor's charging daemon

`BAT3BatteryCharge` looks for the low time that makes the battery current the one that is asked
for, by bisection, and then follows the current in single steps. It charges by a duty cycle,
listens for commands, logs what it measures once a second, and shuts the system down some time
after a power failure. It is a machine whose events are the turns of its loop, each with the
command, the reply and the clock that the turn meets; a turn sends a request and may send a log
packet. Floats are exact rational numbers.
-/

namespace TsBat3

/-- The samples for the log of a second that there is room for. -/
def MAXSAMPLES : Nat := 32

/-- `struct BAT3chargeState`, without the addresses of the log's receiver -/
structure BAT3chargeState where
  targetI : Int
  masterI : Int
  timeOn : Int
  timeOff : Int
  timer : Int
  locked : Bool
  lockHi : Word
  lockLo : Word
  lockMax : Word
  pwm : Nat → ℚ
  V : Nat → ℚ
  I : Nat → ℚ
  T : Nat → ℚ
  lastT : Time
  numSamples : Nat
  txSocket : Int

/-- The state before the first search, with what the uninitialised arrays hold. -/
def BAT3chargeState_Init (samples : Nat → ℚ) (targetI on off : Int) : BAT3chargeState where
  targetI := targetI
  masterI := targetI
  timeOn := on
  timeOff := off
  timer := on
  locked := false
  lockMax := 500
  lockHi := 501
  lockLo := 0
  pwm := samples
  V := samples
  I := samples
  T := samples
  lastT := 0
  numSamples := 0
  txSocket := -1

/-! ### Commands -/

/-- `struct BAT3UDPcommand` as it is taken apart, with the socket that command 1 opens -/
inductive BAT3UDPcommand
  | cmd1 (socket : Int)
  | cmd2
  | cmd3 (targetI : Int)
  | cmd4 (targetI timeOn timeOff : Int)
  | other

/-- A new target, in mA. The search begins anew when it is far from the old one. -/
def retarget (state : BAT3chargeState) (targetI : Int) : BAT3chargeState :=
  let state :=
    if |state.targetI - targetI * 1000| > 3000 then
      { state with locked := false, lockHi := state.lockMax + 1, lockLo := 0 }
    else state
  { state with targetI := targetI * 1000, masterI := targetI * 1000 }

def BAT3UDPcommandCheck (state : BAT3chargeState) : Option BAT3UDPcommand → BAT3chargeState
  | some (.cmd1 socket) => { state with txSocket := socket }
  | some .cmd2 => { state with txSocket := -1 }
  | some (.cmd3 targetI) =>
      { retarget state targetI with timeOn := 1, timeOff := 0, timer := 1 }
  | some (.cmd4 targetI timeOn timeOff) =>
      let timeOn := if timeOn < 0 then 0 else timeOn
      let timeOff := if timeOff < 0 then 0 else timeOff
      { retarget state targetI with timeOn, timeOff, timer := timeOn }
  | _ => state

/-! ### The log -/

/-- The battery voltage. -/
def battV (ticks : Word) : ℚ := ticks.toNat / 12160

/-- The temperature of a TMP124, in degrees Fahrenheit. -/
def tempF (tmp : Word) : ℚ :=
  let tmpd := tmp &&& 0x7F
  let tmp := tmp.sshiftRight 7
  let f : ℚ := tmp.toInt + tmpd.toInt / 128
  9 / 5 * f + 32

def average (arr : Nat → ℚ) (count : Nat) : ℚ :=
  if count = 0 then 0
  else
    let (Sum, n) := (List.range count).foldl
      (fun (Sum, n) j => (Sum + arr j, n + 1)) ((0 : ℚ), (0 : Nat))
    Sum / n

/-- The extremes that `smoothAverage` notes down, and their places. -/
structure Extremes where
  min : ℚ
  max : ℚ
  minI : ℚ
  maxI : ℚ

/-- The first loop of `smoothAverage` for a place. -/
def Extremes.look (arr : Nat → ℚ) (found : Extremes) (j : Nat) : Extremes :=
  let found := if arr j < found.min then { found with minI := j, min := arr j } else found
  if arr j > found.max then { found with maxI := j, max := arr j } else found

/-- The average of the samples but two. The places of the extremes start from a sample, and the
extremes from 0. -/
def smoothAverage (arr : Nat → ℚ) (count : Nat) : ℚ :=
  if count = 0 then 0
  else if count = 1 then arr 0
  else if count = 2 then (arr 0 + arr 1) / 2
  else
    let found := (List.range' 1 (count - 1)).foldl (Extremes.look arr)
      { min := 0, max := 0, minI := arr 0, maxI := arr 0 }
    let (Sum, n) := (List.range count).foldl
      (fun (Sum, n) j =>
        if (j : ℚ) ≠ found.minI ∧ (j : ℚ) ≠ found.maxI then (Sum + arr j, n + 1) else (Sum, n))
      ((0 : ℚ), (0 : Nat))
    Sum / n

/-- `(int)f` -/
def truncate (f : ℚ) : Int := if 0 ≤ f then ⌊f⌋ else ⌈f⌉

/-- `struct bat3Info`, without what is always 0 -/
structure Bat3Info where
  t : Time
  supplyV : Word
  regV : Word
  battV : ℚ
  battI : Int
  tempF : ℚ
  pwmt : Word
  pwmlo : ℚ
  pwm1en : Bool
  pwm2en : Bool
  offset : Bool
  opamp : Bool
  buck : Bool
  led : Bool
  jp3 : Bool
  onbatt : Bool
  softJP3 : Bool
  locked : Bool

/-- The log packet of the second that has gone. -/
def logInfo (state : BAT3chargeState) (rep : BAT3reply) : Bat3Info where
  t := state.lastT
  supplyV := rep.adc0
  regV := rep.adc2
  battV := smoothAverage state.V state.numSamples
  battI := truncate (smoothAverage state.I state.numSamples)
  tempF := smoothAverage state.T state.numSamples
  pwmt := rep.pwmT
  pwmlo := average state.pwm state.numSamples
  pwm1en := rep.outputs.PWM1en
  pwm2en := rep.outputs.PWM2en
  offset := !rep.outputs._offsetEn
  opamp := rep.outputs.opampEn
  buck := !rep.outputs._buckEn
  led := !rep.outputs._led
  jp3 := !rep.outputs._jp3
  onbatt := rep.outputs.batRun
  softJP3 := rep.outputs.softJP3
  locked := state.locked

/-- A second of the duty cycle. -/
def dutyTick (state : BAT3chargeState) : BAT3chargeState :=
  if state.timer > 0 then
    let state := { state with timer := state.timer - 1 }
    if state.timer = 0 then
      if state.timeOff > 0 then { state with targetI := 0 }
      else { state with timer := state.timeOn }
    else state
  else
    let state := { state with timer := state.timer - 1 }
    if state.timer ≤ -state.timeOff then
      let state :=
        if state.timeOn > 0 then { state with targetI := state.masterI, locked := false }
        else state
      { state with timer := state.timeOn }
    else state

/-- Another sample for the log, if there is room. -/
def addSample (state : BAT3chargeState) (rep : BAT3reply) : BAT3chargeState :=
  if state.numSamples < MAXSAMPLES then
    { state with
      V := Function.update state.V state.numSamples (battV rep.adc6)
      I := Function.update state.I state.numSamples (battI rep.adc7)
      T := Function.update state.T state.numSamples (tempF (rep.temp - 7))
      pwm := Function.update state.pwm state.numSamples rep.pwmLo.toNat
      numSamples := state.numSamples + 1 }
  else state

/-- What happens when the clock shows another second: the log packet that is sent, if any, and
the duty cycle. -/
def nextSecond (state : BAT3chargeState) (rep : BAT3reply) (t : Time) :
    BAT3chargeState × Option Bat3Info :=
  if t ≠ state.lastT then
    let (state, info) :=
      if state.numSamples > 0 then
        ({ state with numSamples := 0 },
          if state.txSocket > -1 then some (logInfo state rep) else none)
      else (state, none)
    let state := { state with lastT := t }
    -- the duty cycle stands still on batteries
    if !rep.outputs.batRun then (dutyTick state, info) else (state, info)
  else (state, none)

def BAT3UDPlogUpdate (state : BAT3chargeState) (rep : BAT3reply) (t : Time) :
    BAT3chargeState × Option Bat3Info :=
  let (state, info) := nextSecond state rep t
  (addSample state rep, info)

/-! ### Requests -/

/-- A request that echoes a reply, in a buffer. -/
def BAT3requestInitFromReply (rep : BAT3reply) (req : BAT3request) : BAT3request :=
  { req with
    outputs :=
      { rep.outputs with
        softJP3 := false
        _led :=
          if rep.outputs.batRun then true
          else if rep.outputs.PWM1en || rep.outputs.PWM2en then !rep.outputs._led
          else false }
    pwmLo := rep.pwmLo
    pwmT := rep.pwmT
    alarm := 0 }

/-- Follow the current in single steps. A target that cannot be reached is given up. -/
def regulate (state : BAT3chargeState) (req : BAT3request) (rep : BAT3reply) :
    BAT3chargeState × BAT3request :=
  if !rep.outputs.batRun ∧ state.targetI > 0 ∧ battI rep.adc7 - state.targetI > 3000 then
    if req.pwmLo < state.lockMax then (state, { req with pwmLo := req.pwmLo + 1 })
    else ({ state with targetI := 0 }, req)
  else if !rep.outputs.batRun ∧ state.targetI > 0 ∧ battI rep.adc7 - state.targetI < -3000 then
    if req.pwmLo > 0 then (state, { req with pwmLo := req.pwmLo - 1 })
    else ({ state with targetI := 0 }, req)
  else (state, req)

/-- What a reply leaves of the window. The one behind a new window has not been asked for. -/
def tighten (state : BAT3chargeState) (req : BAT3request) (rep : BAT3reply) : BAT3chargeState :=
  if state.lockHi > state.lockMax then { state with lockHi := state.lockMax }
  else if battI rep.adc7 > state.targetI then { state with lockLo := req.pwmLo }
  else { state with lockHi := req.pwmLo }

/-- Look for the low time, in the middle of the window that is left. -/
def seek (state : BAT3chargeState) (req : BAT3request) (rep : BAT3reply) :
    BAT3chargeState × BAT3request :=
  let state := tighten state req rep
  let gap : Int := state.lockHi.toNat - state.lockLo.toNat
  let req := { req with pwmLo := .ofInt 16 (state.lockLo.toNat + gap.tdiv 2) }
  (if gap < 2 then { state with locked := true } else state, req)

/-- Charge while there is a current to charge with. -/
def enablePwm (state : BAT3chargeState) (req : BAT3request) : BAT3request :=
  let on := decide (state.targetI > 0)
  { req with
    outputs := { req.outputs with PWM1en := on, PWM2en := on, opampEn := true }
    pwmT := state.lockMax }

/-- The request of a turn. -/
def updatePwm (state : BAT3chargeState) (req : BAT3request) (rep : BAT3reply) :
    BAT3chargeState × BAT3request :=
  let req := enablePwm state req
  if state.locked then regulate state req rep else seek state req rep

/-! ### The loop -/

/-- The seconds until a shutdown, -1 while none is due, and whether it is time now. -/
def shutdownTick (shutdelay : Int) (batRun : Bool) (pending : Int) : Int × Bool :=
  if batRun then
    if shutdelay > 0 then
      if pending > 0 then
        let pending := pending - 1
        -- just in case the shutdown fails
        if pending = 0 then (15, true) else (pending, false)
      else (shutdelay, false)
    else (pending, false)
  else (-1, false)

/-- The locals of `BAT3BatteryCharge`, with the buffer of the request. -/
structure ChargeLoop where
  state : BAT3chargeState
  req : BAT3request
  lastT : Time
  shutdownPending : Int

/-- What a turn of the loop meets. -/
structure ChargeEvent where
  command : Option BAT3UDPcommand
  rep : BAT3reply
  t : Time

/-- What a turn of the loop does. -/
structure ChargeTurn where
  request : BAT3request
  shutdown : Bool
  info : Option Bat3Info

/-- The state in a turn before its request is made: a command may have come, and another second
may have begun. -/
def listen (state : BAT3chargeState) (event : ChargeEvent) : BAT3chargeState × Option Bat3Info :=
  BAT3UDPlogUpdate (BAT3UDPcommandCheck state event.command) event.rep event.t

/-- The loop of `BAT3BatteryCharge`. -/
def BAT3BatteryCharge (shutdelay : Int) : Machine ChargeLoop ChargeEvent ChargeTurn where
  step loop event :=
    let (state, info) := listen loop.state event
    let req := BAT3requestInitFromReply event.rep loop.req
    let (shutdownPending, shutdown) :=
      if event.t ≠ loop.lastT then
        shutdownTick shutdelay event.rep.outputs.batRun loop.shutdownPending
      else (loop.shutdownPending, false)
    let (state, req) := updatePwm state req event.rep
    ({ state, req, lastT := event.t, shutdownPending }, { request := req, shutdown, info })

/-- The loop before its first turn, with what its memory holds. -/
def startCharge (samples : Nat → ℚ) (req : BAT3request) (targetI on off : Int) : ChargeLoop where
  state := BAT3chargeState_Init samples targetI on off
  req := req
  lastT := 0
  shutdownPending := -1

end TsBat3

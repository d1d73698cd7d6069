import TsBat3.Message.Layout

/-! # Messages and the state

`decodemsg` reads a reply into the state, `encodemsg` writes the state into a
request. The request is built in place: bits of the buffer that no assignment
names stay as they were.
-/

namespace TsBat3

/-- `flag?ON:OFF` -/
def OnOff.onIf (flag : Bool) : OnOff := if flag then .ON else .OFF

/-- `flag?OFF:ON` -/
def OnOff.offIf (flag : Bool) : OnOff := if flag then .OFF else .ON

theorem onIf_beq (flag : Bool) : (OnOff.onIf flag == .ON) = flag := by
  cases flag <;> rfl

theorem offIf_beq (flag : Bool) : (OnOff.offIf flag == .OFF) = flag := by
  cases flag <;> rfl

theorem onIf_of_beq (switch : OnOff) : OnOff.onIf (switch == .ON) = switch := by
  cases switch <;> rfl

theorem offIf_of_beq (switch : OnOff) : OnOff.offIf (switch == .OFF) = switch := by
  cases switch <;> rfl

/-- The state a reply reports. -/
def decodeReply (reply : BAT3reply) : Bat3 where
  inpU := reply.adc0
  regU := reply.adc2
  batU := reply.adc6
  batI := reply.adc7
  pwmLo := reply.pwmLo
  pwmT := reply.pwmT
  temp := reply.temp
  pwm1en := .onIf reply.outputs.PWM1en
  pwm2en := .onIf reply.outputs.PWM2en
  offsetEn := .offIf reply.outputs._offsetEn
  opampEn := .onIf reply.outputs.opampEn
  buckEn := .onIf reply.outputs._buckEn
  led := .offIf reply.outputs._led
  jp3 := .offIf reply.outputs._jp3
  batRun := .onIf reply.outputs.batRun
  softJP3 := .onIf reply.outputs.softJP3
  eeAddr := reply.eeAddr
  eeData := reply.eeData
  eeRead := .onIf reply.outputs.eeRead
  eeWrite := .onIf reply.outputs.eeWrite
  eeReady := .onIf reply.outputs.eeReady

/-- Converts an incoming message to a state. A message of the wrong size is
refused (return value 1). -/
def decodemsg (msg : List Byte) (size : Nat) : Option Bat3 :=
  if size ≠ BAT3reply.size then none
  else some (decodeReply (BAT3reply.ofBytes msg))

/-- The assignments to the bit-fields of a request. -/
def encodeOutputs (outputs : Outputs) (mybat3 : Bat3) : Outputs :=
  { outputs with
    PWM1en := mybat3.pwm1en == .ON
    PWM2en := mybat3.pwm2en == .ON
    _offsetEn := mybat3.offsetEn == .OFF
    opampEn := mybat3.opampEn == .ON
    _buckEn := mybat3.buckEn == .OFF
    _led := mybat3.led == .OFF
    _jp3 := mybat3.jp3 == .OFF
    batRun := mybat3.batRun == .ON
    eeRead := mybat3.eeRead == .ON
    eeWrite := mybat3.eeWrite == .ON
    eeReady := mybat3.eeReady == .ON
    softJP3 := mybat3.softJP3 == .ON }

/-- The assignments to the members of a request. -/
def encodeRequest (req : BAT3request) (mybat3 : Bat3) : BAT3request :=
  { req with
    alarm := 0
    outputs := encodeOutputs req.outputs mybat3
    pwmLo := mybat3.pwmLo
    pwmT := mybat3.pwmT
    eeAddr := mybat3.eeAddr
    eeData := mybat3.eeData }

/-- Converts the state to an outgoing message: the return value and the buffer. -/
def encodemsg (msg : List Byte) (size : Nat) (mybat3 : Bat3) : Nat × List Byte :=
  if size < BAT3request.size then (1, msg)
  else (BAT3request.size, (encodeRequest (BAT3request.ofBytes msg) mybat3).store msg)

theorem decodemsg_reply {msg : List Byte} (complete : msg.length = BAT3reply.size) :
    decodemsg msg msg.length = some (decodeReply (BAT3reply.ofBytes msg)) := by
  simp only [decodemsg, complete, ne_eq, not_true_eq_false, ↓reduceIte]

/-- The request that an encoded buffer holds. -/
theorem ofBytes_encodemsg (msg : List Byte) {size : Nat} (room : BAT3request.size ≤ size)
    (mybat3 : Bat3) : BAT3request.ofBytes (encodemsg msg size mybat3).2 =
      encodeRequest (BAT3request.ofBytes msg) mybat3 := by
  simp only [encodemsg, Nat.not_lt.mpr room, ↓reduceIte, BAT3request.store,
    BAT3request.ofBytes_toBytes]

end TsBat3

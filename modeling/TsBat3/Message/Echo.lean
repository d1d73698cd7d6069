import TsBat3.Message.Convert

/-! # What a request echoes of a reply

A request is expected to repeat the settings of the reply it was built from. It
repeats all of them but one: `decodemsg` reads `_buckEn` with the polarity of the
active-high flags while `encodemsg` writes it with that of the active-low ones,
so the flag is inverted in both directions.
-/

namespace TsBat3

/-- The settings the two messages share: the flags, the pulse widths and the
EEPROM access. -/
structure Settings where
  flags : List Bool
  pwmLo : Word
  pwmT : Word
  eeAddr : Byte
  eeData : Byte
deriving DecidableEq

def BAT3request.settings (req : BAT3request) : Settings :=
  ⟨req.outputs.flags, req.pwmLo, req.pwmT, req.eeAddr, req.eeData⟩

def BAT3reply.settings (reply : BAT3reply) : Settings :=
  ⟨reply.outputs.flags, reply.pwmLo, reply.pwmT, reply.eeAddr, reply.eeData⟩

/-- The settings of a state: the switches, the pulse widths and the EEPROM
access. -/
def Bat3.settings (state : Bat3) : List OnOff × Word × Word × Byte × Byte :=
  ([state.pwm1en, state.pwm2en, state.offsetEn, state.opampEn, state.buckEn, state.led,
    state.jp3, state.batRun, state.eeRead, state.eeWrite, state.eeReady, state.softJP3],
    state.pwmLo, state.pwmT, state.eeAddr, state.eeData)

/-- The request built from a decoded reply, in any buffer, repeats the settings
of the reply. -/
def EchoesReply (buffer reply : List Byte) : Prop :=
  ∀ state, decodemsg reply reply.length = some state →
    (BAT3request.ofBytes (encodemsg buffer buffer.length state).2).settings =
      (BAT3reply.ofBytes reply).settings

/-- Decoding any reply with the outputs, pulse widths and EEPROM access of the
request for a state gives back the settings of the state. -/
def EchoesState (buffer : List Byte) (state : Bat3) : Prop :=
  ∀ reply : List Byte, reply.length = BAT3reply.size →
    let req := BAT3request.ofBytes (encodemsg buffer buffer.length state).2
    (BAT3reply.ofBytes reply).outputs = req.outputs →
    (BAT3reply.ofBytes reply).pwmLo = req.pwmLo →
    (BAT3reply.ofBytes reply).pwmT = req.pwmT →
    (BAT3reply.ofBytes reply).eeAddr = req.eeAddr →
    (BAT3reply.ofBytes reply).eeData = req.eeData →
      (decodemsg reply reply.length).map Bat3.settings = some state.settings

/-- Encoding a decoded reply repeats every flag but `_buckEn`. -/
theorem flags_encode_decode (outputs : Outputs) (reply : BAT3reply) :
    (encodeOutputs outputs (decodeReply reply)).flags =
      { reply.outputs with _buckEn := !reply.outputs._buckEn }.flags := by
  have inverted : (OnOff.onIf reply.outputs._buckEn == .OFF) = !reply.outputs._buckEn := by
    cases reply.outputs._buckEn <;> rfl
  simp only [encodeOutputs, decodeReply, Outputs.flags, onIf_beq, offIf_beq, inverted]

/-- Decoding the outputs of an encoded state gives back every switch but
`buckEn`. -/
theorem settings_decode_encode (reply : BAT3reply) (outputs : Outputs) (state : Bat3) :
    (decodeReply { reply with
      outputs := encodeOutputs outputs state
      pwmLo := state.pwmLo
      pwmT := state.pwmT
      eeAddr := state.eeAddr
      eeData := state.eeData }).settings =
      { state with buckEn := .offIf (state.buckEn == OnOff.ON) }.settings := by
  have inverted : OnOff.onIf (state.buckEn == .OFF) = .offIf (state.buckEn == .ON) := by
    cases state.buckEn <;> rfl
  simp only [encodeOutputs, decodeReply, Bat3.settings, onIf_of_beq, offIf_of_beq, inverted]

private theorem not_echoesReply {buffer reply : List Byte} (room : BAT3request.size ≤ buffer.length)
    (complete : reply.length = BAT3reply.size) : ¬ EchoesReply buffer reply := by
  intro echoes
  have same := echoes _ (decodemsg_reply complete)
  rw [ofBytes_encodemsg buffer room] at same
  have flags : (encodeOutputs _ (decodeReply (BAT3reply.ofBytes reply))).flags =
      (BAT3reply.ofBytes reply).outputs.flags := congrArg Settings.flags same
  rw [flags_encode_decode] at flags
  have buck : (!(BAT3reply.ofBytes reply).outputs._buckEn) =
      (BAT3reply.ofBytes reply).outputs._buckEn := congrArg (·.getD 4 false) flags
  exact absurd buck (by cases (BAT3reply.ofBytes reply).outputs._buckEn <;> decide)

private theorem not_echoesState {buffer : List Byte} (room : BAT3request.size ≤ buffer.length)
    (state : Bat3) : ¬ EchoesState buffer state := by
  intro echoes
  let blank : BAT3reply := BAT3reply.ofBytes []
  let reply : BAT3reply :=
    { blank with
      outputs := encodeOutputs (BAT3request.ofBytes buffer).outputs state
      pwmLo := state.pwmLo
      pwmT := state.pwmT
      eeAddr := state.eeAddr
      eeData := state.eeData }
  have same := echoes reply.toBytes rfl
  rw [ofBytes_encodemsg buffer room, decodemsg_reply rfl, BAT3reply.ofBytes_toBytes] at same
  have decoded : (decodeReply reply).settings = state.settings :=
    Option.some.inj (same rfl rfl rfl rfl rfl)
  rw [settings_decode_encode] at decoded
  have buck : OnOff.offIf (state.buckEn == .ON) = state.buckEn :=
    congrArg (·.1.getD 4 .ON) decoded
  exact absurd buck (by cases state.buckEn <;> decide)

/-- **The echo law holds of no reply and of no state**, whatever buffer the
request is built in. -/
theorem echo_never (buffer : List Byte) (room : BAT3request.size ≤ buffer.length) :
    (∀ reply : List Byte, reply.length = BAT3reply.size → ¬ EchoesReply buffer reply) ∧
      ∀ state : Bat3, ¬ EchoesState buffer state :=
  ⟨fun _ complete => not_echoesReply room complete, not_echoesState room⟩

theorem echo_never_blank :
    BAT3request.size ≤ (List.replicate 56 (0 : Byte)).length ∧
      ¬ EchoesReply (List.replicate 56 0) (List.replicate 18 0) :=
  ⟨by decide, (echo_never (List.replicate 56 0) (by decide)).1 _ (by decide)⟩

/-- The all-zero reply reports the buck converter enabled; the request built
from it disables the converter. -/
theorem echo_fails_on_zero_reply :
    ¬ ∀ buffer reply : List Byte, BAT3request.size ≤ buffer.length →
      reply.length = BAT3reply.size → EchoesReply buffer reply := by
  intro law
  have same := law (List.replicate 56 0) (List.replicate 18 0) (by decide) (by decide)
    (decodeReply (BAT3reply.ofBytes (List.replicate 18 0))) (by decide)
  exact absurd same (by decide)

end TsBat3

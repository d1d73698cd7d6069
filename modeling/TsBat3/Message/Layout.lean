import TsBat3.Core.State

/-! # Layout of the messages

The packed request and reply structs of `tsbat3.h`, little-endian and with the
bit-fields of the `outputs` word counted from its lowest bit. A C cast of a
buffer to a struct is `ofBytes`; storing the struct in the buffer again is
`store`.
-/

namespace TsBat3

/-- The `unsigned short` stored as two bytes, the low one first. -/
def word (lo hi : Byte) : Word := BitVec.ofNat 16 (lo.toNat + 256 * hi.toNat)

def lowByte (value : Word) : Byte := BitVec.ofNat 8 value.toNat

def highByte (value : Word) : Byte := BitVec.ofNat 8 (value.toNat / 256)

@[simp] theorem word_bytes (value : Word) : word (lowByte value) (highByte value) = value := by
  apply BitVec.eq_of_toNat_eq
  have bound := value.isLt
  simp only [word, lowByte, highByte, BitVec.toNat_ofNat]
  omega

/-- The bit-fields of the `outputs` word, which leave its highest four bits
unnamed. -/
structure Outputs where
  PWM1en : Bool
  PWM2en : Bool
  _offsetEn : Bool
  opampEn : Bool
  _buckEn : Bool
  _led : Bool
  _jp3 : Bool
  batRun : Bool
  eeRead : Bool
  eeWrite : Bool
  eeReady : Bool
  softJP3 : Bool
  unnamed : BitVec 4
deriving DecidableEq, Repr

namespace Outputs

/-- The twelve named flags. -/
def flags (outputs : Outputs) : List Bool :=
  [outputs.PWM1en, outputs.PWM2en, outputs._offsetEn, outputs.opampEn, outputs._buckEn,
    outputs._led, outputs._jp3, outputs.batRun, outputs.eeRead, outputs.eeWrite,
    outputs.eeReady, outputs.softJP3]

/-- The flags of the word, as the bit-field members of the union read them. -/
def ofWord (value : Word) : Outputs where
  PWM1en := value.getLsbD 0
  PWM2en := value.getLsbD 1
  _offsetEn := value.getLsbD 2
  opampEn := value.getLsbD 3
  _buckEn := value.getLsbD 4
  _led := value.getLsbD 5
  _jp3 := value.getLsbD 6
  batRun := value.getLsbD 7
  eeRead := value.getLsbD 8
  eeWrite := value.getLsbD 9
  eeReady := value.getLsbD 10
  softJP3 := value.getLsbD 11
  unnamed := value.extractLsb' 12 4

/-- The word the flags make up, as the member `outputs` of the union reads it. -/
def toWord (outputs : Outputs) : Word :=
  BitVec.ofBoolListLE
    [outputs.PWM1en, outputs.PWM2en, outputs._offsetEn, outputs.opampEn, outputs._buckEn,
      outputs._led, outputs._jp3, outputs.batRun, outputs.eeRead, outputs.eeWrite,
      outputs.eeReady, outputs.softJP3, outputs.unnamed.getLsbD 0, outputs.unnamed.getLsbD 1,
      outputs.unnamed.getLsbD 2, outputs.unnamed.getLsbD 3]

private theorem getLsbD_toWord (outputs : Outputs) (bit : Nat) :
    outputs.toWord.getLsbD bit =
      (outputs.flags ++ [outputs.unnamed.getLsbD 0, outputs.unnamed.getLsbD 1,
        outputs.unnamed.getLsbD 2, outputs.unnamed.getLsbD 3]).getD bit false :=
  BitVec.getLsbD_ofBoolListLE

@[simp] theorem ofWord_toWord (outputs : Outputs) : ofWord outputs.toWord = outputs := by
  have high : outputs.toWord.extractLsb' 12 4 = outputs.unnamed := by
    apply BitVec.eq_of_getLsbD_eq
    intro bit small
    rw [BitVec.getLsbD_extractLsb', getLsbD_toWord]
    simp only [small, decide_true, Bool.true_and]
    match bit, small with
    | 0, _ => rfl
    | 1, _ => rfl
    | 2, _ => rfl
    | 3, _ => rfl
  simp only [ofWord, getLsbD_toWord, high]
  rfl

end Outputs

/-- `struct BAT3request` -/
structure BAT3request where
  alarm : BitVec 32
  outputs : Outputs
  pwmLo : Word
  pwmT : Word
  eeAddr : Byte
  eeData : Byte
deriving DecidableEq, Repr

/-- `struct BAT3reply` -/
structure BAT3reply where
  adc0 : Word
  adc2 : Word
  adc6 : Word
  adc7 : Word
  pwmLo : Word
  pwmT : Word
  temp : Word
  outputs : Outputs
  eeAddr : Byte
  eeData : Byte
deriving DecidableEq, Repr

/-- The byte of a buffer at an offset. -/
def byteAt (msg : List Byte) (offset : Nat) : Byte := msg.getD offset 0

/-- The `unsigned short` of a buffer at an offset. -/
def wordAt (msg : List Byte) (offset : Nat) : Word :=
  word (byteAt msg offset) (byteAt msg (offset + 1))

namespace BAT3request

/-- `sizeof(struct BAT3request)` -/
def size : Nat := 12

/-- `(struct BAT3request *) msg` -/
def ofBytes (msg : List Byte) : BAT3request where
  alarm := BitVec.ofNat 32 ((wordAt msg 0).toNat + 65536 * (wordAt msg 2).toNat)
  outputs := .ofWord (wordAt msg 4)
  pwmLo := wordAt msg 6
  pwmT := wordAt msg 8
  eeAddr := byteAt msg 10
  eeData := byteAt msg 11

/-- The bytes of the struct in memory. -/
def toBytes (req : BAT3request) : List Byte :=
  let alarmLo := BitVec.ofNat 16 req.alarm.toNat
  let alarmHi := BitVec.ofNat 16 (req.alarm.toNat / 65536)
  [lowByte alarmLo, highByte alarmLo, lowByte alarmHi, highByte alarmHi,
    lowByte req.outputs.toWord, highByte req.outputs.toWord,
    lowByte req.pwmLo, highByte req.pwmLo, lowByte req.pwmT, highByte req.pwmT,
    req.eeAddr, req.eeData]

/-- The buffer after the members of the struct it is cast to have been written. -/
def store (req : BAT3request) (msg : List Byte) : List Byte := req.toBytes ++ msg.drop size

@[simp] theorem length_toBytes (req : BAT3request) : req.toBytes.length = size := rfl

@[simp] theorem take_store (req : BAT3request) (msg : List Byte) :
    (req.store msg).take size = req.toBytes := List.take_left' rfl

/-- The members of a struct are read as they were written. -/
@[simp] theorem ofBytes_toBytes (req : BAT3request) (rest : List Byte) :
    ofBytes (req.toBytes ++ rest) = req := by
  have alarmEq : BitVec.ofNat 32 ((BitVec.ofNat 16 req.alarm.toNat).toNat +
      65536 * (BitVec.ofNat 16 (req.alarm.toNat / 65536)).toNat) = req.alarm := by
    apply BitVec.eq_of_toNat_eq
    have bound := req.alarm.isLt
    simp only [BitVec.toNat_ofNat]
    omega
  simp only [ofBytes, wordAt, byteAt, toBytes, List.cons_append, List.nil_append,
    List.getD_cons_zero, List.getD_cons_succ, Nat.reduceAdd, word_bytes, alarmEq,
    Outputs.ofWord_toWord]

end BAT3request

namespace BAT3reply

/-- `sizeof(struct BAT3reply)` -/
def size : Nat := 18

/-- `(struct BAT3reply *) msg` -/
def ofBytes (msg : List Byte) : BAT3reply where
  adc0 := wordAt msg 0
  adc2 := wordAt msg 2
  adc6 := wordAt msg 4
  adc7 := wordAt msg 6
  pwmLo := wordAt msg 8
  pwmT := wordAt msg 10
  temp := wordAt msg 12
  outputs := .ofWord (wordAt msg 14)
  eeAddr := byteAt msg 16
  eeData := byteAt msg 17

/-- The bytes of the struct in memory. -/
def toBytes (reply : BAT3reply) : List Byte :=
  [lowByte reply.adc0, highByte reply.adc0, lowByte reply.adc2, highByte reply.adc2,
    lowByte reply.adc6, highByte reply.adc6, lowByte reply.adc7, highByte reply.adc7,
    lowByte reply.pwmLo, highByte reply.pwmLo, lowByte reply.pwmT, highByte reply.pwmT,
    lowByte reply.temp, highByte reply.temp,
    lowByte reply.outputs.toWord, highByte reply.outputs.toWord, reply.eeAddr, reply.eeData]

@[simp] theorem length_toBytes (reply : BAT3reply) : reply.toBytes.length = size := rfl

@[simp] theorem ofBytes_toBytes (reply : BAT3reply) : ofBytes reply.toBytes = reply := by
  simp only [ofBytes, wordAt, byteAt, toBytes, List.getD_cons_zero, List.getD_cons_succ,
    Nat.reduceAdd, word_bytes, Outputs.ofWord_toWord]

end BAT3reply

end TsBat3

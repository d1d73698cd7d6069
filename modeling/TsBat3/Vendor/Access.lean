import TsBat3.Vendor.Charge
import TsBat3.Vendor.Exchange

/-! # Access to the EEPROM and to the jumper

`BAT3writeEEPROM`, `BAT3readEEPROM` and the UPS monitor take a reply of the device, turn it into a
request and send that until a packet comes that answers it. A write counts as answered when the
address comes back, whatever data come with it (`TsBat3.eeprom_write_answered`); a byte that is
returned has come with its address, and reading has been switched off behind it
(`TsBat3.eeprom_read_answered`); and the monitor ends when the device shows the soft
jumper set (`TsBat3.monitor_answered`).
-/

namespace TsBat3

/-- `sizeof(struct BAT3request)`, with its checksum -/
def REQUEST_SIZE : Int := 13

/-- `sizeof(struct BAT3reply)`, with its checksum -/
def REPLY_SIZE : Int := 19

/-- The struct at the beginning of a buffer. -/
def requestAt (arr : Memory) : BAT3request := .ofBytes (arr.bytes BAT3request.size)

def replyAt (arr : Memory) : BAT3reply := .ofBytes (arr.bytes BAT3reply.size)

/-- `BYTE_ARRAY_REF_STRUCT(&req)`, with what the memory holds at the place of the checksum -/
def structRef (req : BAT3request) (memory : Memory) : ByteArrayRef where
  len := REQUEST_SIZE
  arr index := if 0 ≤ index then req.toBytes.getD index.toNat (memory index) else memory index

/-! ### Callbacks -/

def BAT3EEPROMdoneCallback (_ rep1 : ByteArrayRef) : Int :=
  if (replyAt rep1.arr).outputs.eeReady = false then 0 else 1

def BAT3EEPROMcallback (req1 rep1 : ByteArrayRef) : Int :=
  let req := requestAt req1.arr
  let rep := replyAt rep1.arr
  if rep.eeAddr ≠ req.eeAddr then 1
  else if rep.outputs.eeReady then 0
  else 2

/-- `callback` of the UPS monitor -/
def monitorCallback (bReq bRep : ByteArrayRef) : Int :=
  if (requestAt bReq.arr).outputs.softJP3 ≠ (replyAt bRep.arr).outputs.softJP3 then 1 else 0

/-! ### Requests -/

/-- The request of `BAT3writeEEPROM`. -/
def writeRequest (rep : BAT3reply) (req : BAT3request) (adrs value : Byte) : BAT3request :=
  let req := BAT3requestInitFromReply rep req
  { req with
    eeAddr := adrs
    eeData := value
    outputs := { req.outputs with eeWrite := true, eeRead := false } }

/-- The first request of `BAT3readEEPROM`. Its data have not been initialised. -/
def readRequest (rep : BAT3reply) (req : BAT3request) (adrs : Byte) : BAT3request :=
  let req := BAT3requestInitFromReply rep req
  { req with
    eeAddr := adrs
    outputs := { req.outputs with eeWrite := false, eeRead := true } }

/-- The second request of `BAT3readEEPROM`. -/
def stopReading (req : BAT3request) : BAT3request :=
  { req with outputs := { req.outputs with eeRead := false } }

/-- `init` of the UPS monitor -/
def monitorInit (rep : BAT3reply) (req : BAT3request) : BAT3request :=
  { req with
    outputs := { rep.outputs with softJP3 := true }
    pwmLo := rep.pwmLo
    pwmT := rep.pwmT
    alarm := 0 }

/-! ### The functions -/

/-- The input that there was has been thrown away. -/
def BAT3writeEEPROM (memory buffer pkt : Memory) (req : BAT3request) (line : List Poll)
    (adrs value : Byte) : Exchange ByteArrayRef :=
  match filePacketGet line ⟨REPLY_SIZE, pkt⟩ with
  | (none, line) => ⟨[], none, line⟩
  | (some b, line) =>
      let req := writeRequest (replyAt b.arr) req adrs value
      AVRsendRequest BAT3EEPROMcallback buffer line (structRef req memory) ⟨REPLY_SIZE, b.arr⟩

def BAT3readEEPROM (memory buffer pkt pkt2 : Memory) (req : BAT3request) (line : List Poll)
    (adrs : Byte) : Exchange Byte :=
  match filePacketGet line ⟨REPLY_SIZE, pkt⟩ with
  | (none, line) => ⟨[], none, line⟩
  | (some b, line) =>
      let req := readRequest (replyAt b.arr) req adrs
      -- no address is -1, but 255 is stored like it
      let ret : ByteArrayRef := ⟨REPLY_SIZE, Function.update b.arr 16 0xFF⟩
      let asked := AVRsendRequest BAT3EEPROMcallback buffer line (structRef req memory) ret
      match asked.reply with
      | none => ⟨asked.sent, none, asked.line⟩
      | some b =>
          let stopped := AVRsendRequest BAT3EEPROMdoneCallback buffer asked.line
            (structRef (stopReading req) memory) ⟨REPLY_SIZE, pkt2⟩
          ⟨asked.sent ++ stopped.sent, stopped.reply.map fun _ => (replyAt b.arr).eeData,
            stopped.line⟩

/-- `_main` of the UPS monitor -/
def monitorMain (memory buffer rep : Memory) (req : BAT3request) (line : List Poll) :
    Exchange ByteArrayRef :=
  match filePacketGet line ⟨256, rep⟩ with
  | (none, line) => ⟨[], none, line⟩
  | (some b, line) =>
      AVRsendRequest monitorCallback buffer line
        (structRef (monitorInit (replyAt b.arr) req) memory) b

/-! ### Structs in memory -/

private theorem bytes_structRef (req : BAT3request) (memory : Memory) :
    (structRef req memory).arr.bytes BAT3request.size = req.toBytes := by
  apply List.ext_getElem (by rw [Memory.length_bytes, BAT3request.length_toBytes])
  intro index _ inside
  have place : (structRef req memory).arr (index : Int) = req.toBytes[index] := by
    unfold structRef
    dsimp only
    rw [if_pos (Int.natCast_nonneg index), Int.toNat_natCast, List.getD_eq_getElem?_getD,
      List.getElem?_eq_getElem inside]
    rfl
  rw [← place]
  simp only [Memory.bytes, List.getElem_map, List.getElem_range]

/-- The checksum stands behind what a callback reads of a request. -/
theorem requestAt_patchChecksum (req : BAT3request) (memory : Memory) :
    requestAt (patchChecksum (structRef req memory)).arr = req := by
  have place : (structRef req memory).len - 1 = BAT3request.size := rfl
  have same := BAT3request.ofBytes_toBytes req []
  rw [List.append_nil] at same
  unfold requestAt patchChecksum
  dsimp only
  rw [place, Memory.bytes_update _ _ _ _ (Or.inr le_rfl),
    Memory.bytes_update _ _ _ _ (Or.inr le_rfl), bytes_structRef, same]

/-- What is sent for a request is what `writeStream` sends for its bytes. -/
theorem serialFramedSend_structRef (buffer : Memory) (req : BAT3request) (memory : Memory) :
    serialFramedSend buffer (patchChecksum (structRef req memory)) = writeStream req.toBytes := by
  have sized : (structRef req memory).len = req.toBytes.length + 1 := rfl
  have sealed := bytes_patchChecksum sized (bytes_structRef req memory)
  have room : 0 ≤ (patchChecksum (structRef req memory)).len := by
    change (0 : Int) ≤ 13
    decide
  rw [serialFramedSend_eq buffer room, sealed, writeStream_eq]
  rfl

/-! ### Exchanges -/

private theorem length_answers_le (count : Nat) (line : List Poll) (ret : ByteArrayRef) :
    (answers count line ret).length ≤ count := by
  induction count generalizing line ret with
  | zero => exact le_rfl
  | succ count ih =>
      unfold answers
      split
      · exact Nat.zero_le _
      · exact Nat.succ_le_succ (ih _ _)

/-- What is sent for a request, and the packet that is taken for its answer, when a callback that
looks at the request and at the packet says which packet that is. -/
theorem exchange_struct {callback : ByteArrayRef → ByteArrayRef → Int} {req : BAT3request}
    {memory : Memory} {size : Int} (Good : BAT3reply → Prop)
    (decides : ∀ arr, callback (patchChecksum (structRef req memory)) ⟨size, arr⟩ = 0 ↔
      Good (replyAt arr)) (buffer : Memory) (line : List Poll) (arr : Memory) :
    let done := AVRsendRequest callback buffer line (structRef req memory) ⟨size, arr⟩
    ∃ refusals others, answers 5 line ⟨size, arr⟩ = refusals ++ others ∧
      done.sent = List.replicate (1 + refusals.length / 2) (writeStream req.toBytes) ∧
      done.reply = others.head? ∧
      (∀ b ∈ refusals, ¬ Good (replyAt b.arr)) ∧ ∀ b ∈ others.head?, Good (replyAt b.arr) := by
  intro done
  obtain ⟨others, split, found, refusals, first⟩ := refused_split callback
    (patchChecksum (structRef req memory)) ⟨size, arr⟩ (answers 5 line ⟨size, arr⟩)
  obtain ⟨sent, reply⟩ :=
    AVRsendRequest_run callback buffer (structRef req memory) line ⟨size, arr⟩
  rw [serialFramedSend_structRef] at sent
  exact ⟨_, others, split, sent, reply.trans found,
    fun b member good => refusals b member ((decides b.arr).mpr good),
    fun b taken => (decides b.arr).mp (first b taken)⟩

/-- An exchange that has sent two frames and returns a packet has refused two or three before. -/
private theorem refused_twice {Refused Taken : ByteArrayRef → Prop} {packets : List ByteArrayRef}
    {done : Exchange ByteArrayRef} {frame : List Byte} (twice : done.sent.length = 2)
    (answered : done.reply.isSome = true)
    (run : ∃ refusals others, packets = refusals ++ others ∧
      done.sent = List.replicate (1 + refusals.length / 2) frame ∧ done.reply = others.head? ∧
      (∀ b ∈ refusals, Refused b) ∧ ∀ b ∈ others.head?, Taken b) :
    ∃ (refusals : List ByteArrayRef) (found : ByteArrayRef), refusals.length / 2 = 1 ∧
      done.reply = some found ∧ (∀ b ∈ refusals, Refused b) ∧ Taken found := by
  obtain ⟨refusals, others, -, sent, returned, refused, taken⟩ := run
  obtain ⟨found, shown⟩ := Option.isSome_iff_exists.mp answered
  have count := congrArg List.length sent
  rw [twice, List.length_replicate] at count
  rw [shown] at returned
  exact ⟨refusals, found, by omega, shown, refused, taken found returned.symm⟩

theorem BAT3writeEEPROM_suffix (memory buffer pkt : Memory) (req : BAT3request)
    (line : List Poll) (adrs value : Byte) :
    (BAT3writeEEPROM memory buffer pkt req line adrs value).line <:+ line := by
  unfold BAT3writeEEPROM
  split
  · rename_i got
    exact filePacketGet_suffix got
  · rename_i got
    exact (AVRsendRequest_suffix _ _ _ _ _).trans (filePacketGet_suffix got)

theorem BAT3readEEPROM_suffix (memory buffer pkt pkt2 : Memory) (req : BAT3request)
    (line : List Poll) (adrs : Byte) :
    (BAT3readEEPROM memory buffer pkt pkt2 req line adrs).line <:+ line := by
  unfold BAT3readEEPROM
  split
  · rename_i got
    exact filePacketGet_suffix got
  · rename_i b rest got
    have behind := (AVRsendRequest_suffix BAT3EEPROMcallback buffer rest
      (structRef (readRequest (replyAt b.arr) req adrs) memory)
      ⟨REPLY_SIZE, Function.update b.arr 16 0xFF⟩).trans (filePacketGet_suffix got)
    dsimp only
    split
    · exact behind
    · exact (AVRsendRequest_suffix _ _ _ _ _).trans behind

/-- A reply answers an access to an address of the EEPROM. -/
def AnswersAccess (adrs : Byte) (rep : BAT3reply) : Prop :=
  rep.eeAddr = adrs ∧ rep.outputs.eeReady = true

theorem BAT3EEPROMcallback_eq_zero (req : BAT3request) (memory arr : Memory) (size : Int) :
    BAT3EEPROMcallback (patchChecksum (structRef req memory)) ⟨size, arr⟩ = 0 ↔
      AnswersAccess req.eeAddr (replyAt arr) := by
  unfold BAT3EEPROMcallback AnswersAccess
  rw [requestAt_patchChecksum]
  dsimp only
  split
  · rename_i other
    exact ⟨fun same => absurd same (by decide), fun answer => absurd answer.1 other⟩
  · rename_i same
    split
    · exact ⟨fun _ => ⟨not_not.mp same, ‹_›⟩, fun _ => rfl⟩
    · rename_i busy
      exact ⟨fun zero => absurd zero (by decide), fun answer => absurd answer.2 busy⟩

/-- A packet that is the head of what follows the refusals is one of at most five. -/
theorem head_answers {count : Nat} {line : List Poll} {ret reply : ByteArrayRef}
    {refusals others : List ByteArrayRef} (split : answers count line ret = refusals ++ others)
    (head : others.head? = some reply) :
    reply ∈ answers count line ret ∧ refusals.length < count := by
  obtain ⟨tail, rfl⟩ := List.head?_eq_some_iff.mp head
  have bound := length_answers_le count line ret
  rw [split, List.length_append, List.length_cons] at bound
  rw [split]
  exact ⟨List.mem_append_right _ List.mem_cons_self, by omega⟩

theorem BAT3EEPROMdoneCallback_eq_zero (req : BAT3request) (memory arr : Memory) (size : Int) :
    BAT3EEPROMdoneCallback (patchChecksum (structRef req memory)) ⟨size, arr⟩ = 0 ↔
      (replyAt arr).outputs.eeReady = false := by
  unfold BAT3EEPROMdoneCallback
  dsimp only
  split
  · exact ⟨fun _ => ‹_›, fun _ => rfl⟩
  · exact ⟨fun zero => absurd zero (by decide), fun idle => absurd idle ‹_›⟩

theorem monitorCallback_eq_zero (req : BAT3request) (memory arr : Memory) (size : Int) :
    monitorCallback (patchChecksum (structRef req memory)) ⟨size, arr⟩ = 0 ↔
      (replyAt arr).outputs.softJP3 = req.outputs.softJP3 := by
  unfold monitorCallback
  rw [requestAt_patchChecksum]
  dsimp only
  split
  · rename_i other
    exact ⟨fun zero => absurd zero (by decide), fun same => absurd same.symm other⟩
  · rename_i same
    exact ⟨fun _ => (not_not.mp same).symm, fun _ => rfl⟩

end TsBat3

import TsBat3.Core.State

/-! # Reading and writing the EEPROM

`doread` and `dowrite` put the next step of a handshake into the state before a
request is made of it. They share one global `romstate`, and they take the state's
own fields for the device's answer.
-/

namespace TsBat3

/-- `romstate_t` -/
inductive RomState
  | WRITE
  | LISTEN
  | DONE
deriving DecidableEq, Repr

/-- The state's address is the one that is asked for. -/
def Bat3.Addressed (state : Bat3) (address : Int) : Prop := (state.eeAddr.toNat : Int) = address

instance (state : Bat3) (address : Int) : Decidable (state.Addressed address) :=
  inferInstanceAs (Decidable (_ = _))

/-- Take both flags back. -/
def release (state : Bat3) (address : Int) : Bat3 :=
  { state with eeAddr := .ofInt 8 address, eeRead := .OFF, eeWrite := .OFF }

/-- The two steps of a handshake in one call. `flag` is the flag that asks and
`issue` asks. -/
def handshake (flag : Bat3 → OnOff) (issue : Bat3 → Bat3) (romstate : RomState) (state : Bat3)
    (address : Int) : RomState × Bat3 :=
  let (romstate, state) :=
    if romstate = .WRITE then
      if state.Addressed address ∧ flag state = .ON then (.LISTEN, state)
      else (romstate, issue state)
    else (romstate, state)
  if romstate = .LISTEN then
    if state.Addressed address ∧ flag state = .OFF then (.DONE, state)
    else (romstate, release state address)
  else (romstate, state)

/-- Ask for the byte at an address. -/
def askRead (address : Int) (state : Bat3) : Bat3 :=
  { state with eeAddr := .ofInt 8 address, eeRead := .ON, eeWrite := .OFF, eeData := 0 }

/-- Ask for a byte to be written to an address. -/
def askWrite (address value : Int) (state : Bat3) : Bat3 :=
  { state with
    eeAddr := .ofInt 8 address
    eeRead := .OFF
    eeWrite := .ON
    eeData := .ofInt 8 value }

def doread (romstate : RomState) (state : Bat3) (address : Int) : RomState × Bat3 :=
  handshake Bat3.eeRead (askRead address) romstate state address

def dowrite (romstate : RomState) (state : Bat3) (address value : Int) : RomState × Bat3 :=
  handshake Bat3.eeWrite (askWrite address value) romstate state address

section Handshake

variable {flag : Bat3 → OnOff} {issue : Bat3 → Bat3} {state : Bat3} {address : Int}

/-- A handshake asks until the state shows the flag. -/
theorem handshake_ask (unasked : ¬ (state.Addressed address ∧ flag state = .ON)) :
    handshake flag issue .WRITE state address = (.WRITE, issue state) := by
  unfold handshake
  rw [if_pos rfl, if_neg unasked]
  exact if_neg RomState.noConfusion

/-- A state that shows the flag is taken for an acknowledgement. -/
theorem handshake_acknowledged (asked : state.Addressed address ∧ flag state = .ON) :
    handshake flag issue .WRITE state address = (.LISTEN, release state address) := by
  have on : ¬ (state.Addressed address ∧ flag state = .OFF) :=
    fun released => OnOff.noConfusion (asked.2.symm.trans released.2)
  unfold handshake
  rw [if_pos rfl, if_pos asked]
  exact (if_pos rfl).trans (if_neg on)

/-- A handshake that has been acknowledged leaves the state alone or takes the flags
back, and does not ask again. -/
theorem handshake_settled {romstate : RomState} (settled : romstate ≠ .WRITE) :
    (handshake flag issue romstate state address).1 ≠ .WRITE ∧
      ((handshake flag issue romstate state address).2 = release state address ∨
        (handshake flag issue romstate state address).2 = state) := by
  unfold handshake
  rw [if_neg settled]
  dsimp only
  by_cases listening : romstate = .LISTEN
  · rw [if_pos listening]
    split
    · exact ⟨RomState.noConfusion, Or.inr rfl⟩
    · exact ⟨settled, Or.inl rfl⟩
  · rw [if_neg listening]
    exact ⟨settled, Or.inr rfl⟩

/-- What asking and taking back preserve, a handshake preserves. -/
theorem handshake_invariant (inv : Bat3 → Prop) (asked : ∀ state, inv state → inv (issue state))
    (released : ∀ state, inv state → inv (release state address)) (romstate : RomState)
    {state : Bat3} (start : inv state) : inv (handshake flag issue romstate state address).2 := by
  by_cases settled : romstate = .WRITE
  · rw [settled]
    by_cases shown : state.Addressed address ∧ flag state = .ON
    · rw [handshake_acknowledged shown]
      exact released state start
    · rw [handshake_ask shown]
      exact asked state start
  · have kept := @handshake_settled flag issue state address romstate settled
    rcases kept.2 with taken | same
    · rw [taken]
      exact released state start
    · rw [same]
      exact start

/-- An address that fits its byte is stored as it is. -/
theorem addressed_ofInt {address : Int} (range : 0 ≤ address ∧ address ≤ 255) :
    ((BitVec.ofInt 8 address).toNat : Int) = address := by
  rw [BitVec.toNat_ofInt]
  omega

end Handshake

end TsBat3

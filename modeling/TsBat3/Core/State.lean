import Mathlib.Algebra.Field.Rat
import Mathlib.Algebra.Order.Ring.Rat
import Mathlib.Data.BitVec

/-! # The data of the daemon

The battery controller's state as the daemon keeps it between a reply and the
next request (`struct bat3`), and the parameters that steer it
(`struct action`). The write-only time stamp `updated` of the former and the
device name, log file and unused socket of the latter are left out.

The charging filter keeps its weighted means as C floats. Their operations are a
parameter (`TsBat3.Arith`), with the exact rational ones as the instance
`TsBat3.Arith.exact`.
-/

namespace TsBat3

/-- `unsigned char` -/
abbrev Byte := BitVec 8

/-- `unsigned short` -/
abbrev Word := BitVec 16

/-- `time_t`, in seconds -/
abbrev Time := Int

/-- A number that is read from a text, in the `int` that it is stored in: `strtol` stops at the
bounds of a `long`, and the lower 32 bits are kept. -/
def storedInt (number : Int) : Int :=
  (BitVec.ofInt 32 (max (-2 ^ 63) (min number (2 ^ 63 - 1)))).toInt

/-- A number that fits is stored as it is. -/
theorem storedInt_of_fits {number : Int} (low : -2 ^ 31 ≤ number) (high : number < 2 ^ 31) :
    storedInt number = number := by
  have inside : max (-2 ^ 63) (min number (2 ^ 63 - 1)) = number := by omega
  rw [storedInt, inside]
  exact BitVec.toInt_ofInt_eq_self (by decide) low high

/-- `onoff_t` -/
inductive OnOff
  | ON
  | OFF
deriving DecidableEq, Repr

/-- `struct bat3` -/
structure Bat3 where
  inpU : Word
  regU : Word
  batU : Word
  batI : Word
  pwmLo : Word
  pwmT : Word
  temp : Word
  eeAddr : Byte
  eeData : Byte
  pwm1en : OnOff
  pwm2en : OnOff
  offsetEn : OnOff
  opampEn : OnOff
  buckEn : OnOff
  led : OnOff
  jp3 : OnOff
  batRun : OnOff
  eeRead : OnOff
  eeWrite : OnOff
  eeReady : OnOff
  softJP3 : OnOff
deriving DecidableEq, Repr

/-- The state with everything at zero and off. -/
def Bat3.blank : Bat3 :=
  ⟨0, 0, 0, 0, 0, 0, 0, 0, 0,
    .OFF, .OFF, .OFF, .OFF, .OFF, .OFF, .OFF, .OFF, .OFF, .OFF, .OFF, .OFF⟩

/-- The number of weights the voltage history has room for. -/
def MAXMIN : Nat := 30

/-- The floating-point operations of the voltage history. -/
structure Arith (F : Type) where
  /-- `newweight = newval` -/
  ofInt : Int → F
  /-- `1.00 * newval * (1 - FILTER) + prev * (FILTER)` -/
  blend : Int → F → F
  /-- `diff = curr - prev` with `(diff > -1) && (diff < 1)` -/
  near : F → F → Bool

/-- The filter in exact arithmetic, with `FILTER` = 99/100. -/
def Arith.exact : Arith ℚ where
  ofInt newval := newval
  blend newval prev := 1 * newval * (1 - 99 / 100) + prev * (99 / 100)
  near curr prev := -1 < curr - prev ∧ curr - prev < 1

/-- `struct action` -/
structure Action (F : Type) where
  current : Int
  read : Bool
  write : Bool
  address : Int
  loglevel : Int
  portno : Int
  value : Int
  samples : Int
  hours : Time
  /-- The memory at `weight`, of which `weight[0..MAXMIN-1]` is the array. -/
  weight : Nat → F
  weightpos : Nat
  alarm : Time
  stableTime : Time

end TsBat3

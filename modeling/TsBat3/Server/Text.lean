import TsBat3.Core.State

/-! # Texts of the socket server

C strings as lists of bytes, with the parts of `printf` and `scanf` that the server uses.
-/

namespace TsBat3

/-- The bytes of a text. -/
def text (string : String) : List Byte :=
  string.toList.map fun char => BitVec.ofNat 8 char.toNat

/-- The C string at the start of an array. -/
def cString (array : List Byte) : List Byte := array.takeWhile (· != 0)

/-- `isspace` -/
def isSpace (byte : Byte) : Bool := byte == 0x20 || 0x09 ≤ byte && byte ≤ 0x0D

/-- The first word of a text, with what follows it. -/
def scanWord (input : List Byte) : Option (List Byte × List Byte) :=
  match input.dropWhile isSpace with
  | [] => none
  | byte :: rest => some ((byte :: rest).span (! isSpace ·))

/-- What a digit counts, in a number system. -/
def digit (base : Nat) (byte : Byte) : Option Nat :=
  let value :=
    if 0x30 ≤ byte && byte ≤ 0x39 then byte.toNat - 0x30
    else if 0x41 ≤ byte && byte ≤ 0x46 then byte.toNat - 0x41 + 10
    else if 0x61 ≤ byte && byte ≤ 0x66 then byte.toNat - 0x61 + 10
    else base
  if value < base then some value else none

/-- The number at the start of a text, if there is a digit. -/
def scanDigits (base : Nat) (input : List Byte) : Option Int :=
  let digits := (input.map (digit base)).takeWhile Option.isSome
  if digits = [] then none
  else some (digits.foldl (fun value digit => base * value + (digit.getD 0 : Nat)) 0)

/-- A number without its sign. `%i` takes the number system from the prefix, `%d` is always
decimal. -/
def scanUnsigned (prefixed : Bool) (input : List Byte) : Option Int :=
  match prefixed, input with
  | true, 0x30 :: 0x78 :: rest => (scanDigits 16 rest).orElse fun _ => some 0
  | true, 0x30 :: 0x58 :: rest => (scanDigits 16 rest).orElse fun _ => some 0
  | true, 0x30 :: rest => scanDigits 8 (0x30 :: rest)
  | _, input => scanDigits 10 input

/-- A number with its sign. -/
def scanSigned (prefixed : Bool) (input : List Byte) : Option Int :=
  match input.dropWhile isSpace with
  | 0x2D :: rest => (scanUnsigned prefixed rest).map (- ·)
  | 0x2B :: rest => scanUnsigned prefixed rest
  | input => scanUnsigned prefixed input

/-- `sscanf` with `%i` or `%d`. -/
def scanInt (prefixed : Bool) (input : List Byte) : Option Int :=
  (scanSigned prefixed input).map storedInt

/-- An argument of `printf`. -/
inductive Arg
  | int (value : Int)
  | str (value : List Byte)

/-- `vsprintf` with the conversions `%s`, `%d` and `%i`. -/
def vsprintf : List Byte → List Arg → List Byte
  | 0x25 :: 0x73 :: format, .str value :: args => value ++ vsprintf format args
  | 0x25 :: 0x64 :: format, .int value :: args => text (toString value) ++ vsprintf format args
  | 0x25 :: 0x69 :: format, .int value :: args => text (toString value) ++ vsprintf format args
  | byte :: format, args => byte :: vsprintf format args
  | [], _ => []

example : vsprintf (text "%s: %i") [.str (text "hours"), .int (-1)] = text "hours: -1" := by
  decide +kernel

end TsBat3

import TsBat3.Core.State

/-! # The parameters

How the parameters get their values: from `initParams`, from the command line,
and from clients through `setCurrent` and `setHours`.
-/

namespace TsBat3

def DEFAULT_LOGLEVEL : Int := 3

def DEFAULT_SAMPLES : Int := 10

def DEFAULT_CURRENT : Int := 400

def DEFAULT_ADDRESS : Int := 0x80

def DEFAULT_PORT : Int := 1302

section Params

variable {F : Type}

def setCurrent (params : Action F) (i : Int) : Action F :=
  { params with current := if i < 0 ∨ i > 2000 then DEFAULT_CURRENT else i, stableTime := 0 }

/-- End charging after `i` hours from now. A negative number takes the end time
back. -/
def setHours (now : Time) (params : Action F) (i : Int) : Action F :=
  if i < 0 then { params with hours := 0 }
  else { params with hours := now + (if i > 48 then 48 else i) * 3600 }

/-- The static parameters before `main`. -/
def staticParams (zero : F) : Action F where
  current := 0
  read := false
  write := false
  address := 0
  loglevel := 0
  portno := 0
  value := 0
  samples := 0
  hours := 0
  weight _ := zero
  weightpos := 0
  alarm := 0
  stableTime := 0

def initParams (params : Action F) : Action F :=
  { params with
    address := DEFAULT_ADDRESS
    current := DEFAULT_CURRENT
    read := false
    write := false
    value := 0
    loglevel := DEFAULT_LOGLEVEL
    samples := DEFAULT_SAMPLES
    portno := DEFAULT_PORT
    hours := -1
    weightpos := 0 }

/-- The number at the start of a text, 0 when there is none. -/
def atoi (text : String) : Int :=
  let text := text.toList.dropWhile fun char => char == ' ' || '\t' ≤ char && char ≤ '\r'
  let digits (text : List Char) : Int :=
    (text.takeWhile Char.isDigit).foldl (fun value digit => 10 * value + (digit.toNat - 48)) 0
  storedInt <|
    match text with
    | '-' :: text => -digits text
    | '+' :: text => digits text
    | text => digits text

/-- What `getopt` finds on the command line: an option, its argument, and the time
at which it is looked at. -/
structure Argument where
  c : Char
  optarg : String
  now : Time

/-- The `switch` on an option. Options that are not understood end the scan. -/
def processArgument (params : Action F) (argument : Argument) : Option (Action F) :=
  let value := atoi argument.optarg
  match argument.c with
  | 'a' => some { params with address := value }
  | 'c' => some (setCurrent params value)
  | 'd' => some params
  | 'e' => some (setHours argument.now params value)
  -- the log file's name falls through to the log level
  | 'f' => some { params with loglevel := value }
  | 'l' => some { params with loglevel := value }
  | 'p' => some { params with portno := value }
  | 'r' => some { params with read := true }
  | 's' => some { params with samples := value }
  | 'w' => some { params with write := true, value }
  | _ => none

/-- The options up to the first that is not understood. `main` ignores that it was
not. -/
def processArguments (params : Action F) : List Argument → Action F
  | [] => params
  | argument :: arguments =>
      match processArgument params argument with
      | none => params
      | some params => processArguments params arguments

/-- The parameters with which `main` starts the daemon. -/
def startParams (zero : F) (arguments : List Argument) : Action F :=
  let params := processArguments (initParams (staticParams zero)) arguments
  if params.samples < -1 then { params with samples := DEFAULT_SAMPLES } else params

/-- What every understood option preserves holds after the command line. -/
theorem processArguments_invariant (inv : Action F → Prop) (arguments : List Argument)
    (preserved : ∀ argument ∈ arguments, ∀ params next, inv params →
      processArgument params argument = some next → inv next)
    {params : Action F} (start : inv params) : inv (processArguments params arguments) := by
  induction arguments generalizing params with
  | nil => exact start
  | cons argument arguments ih =>
      unfold processArguments
      cases taken : processArgument params argument with
      | none => exact start
      | some next =>
          exact ih (fun other member => preserved other (List.mem_cons_of_mem _ member))
            (preserved argument List.mem_cons_self params next start taken)

/-- What the defaults have, and what every understood option and the number of samples
leave alone, holds of the parameters that the daemon starts with. -/
theorem startParams_invariant (inv : Action F → Prop) (zero : F) (arguments : List Argument)
    (start : inv (initParams (staticParams zero)))
    (preserved : ∀ argument ∈ arguments, ∀ params next, inv params →
      processArgument params argument = some next → inv next)
    (capped : ∀ params samples, inv params → inv { params with samples }) :
    inv (startParams zero arguments) := by
  have processed := processArguments_invariant inv arguments preserved start
  unfold startParams
  dsimp only
  split
  · exact capped _ DEFAULT_SAMPLES processed
  · exact processed

/-- Nothing has been recorded and no timer runs. -/
def Action.Idle (params : Action F) : Prop := params.weightpos = 0 ∧ params.stableTime = 0

theorem Action.Idle.setHours {params : Action F} (idle : params.Idle) (now : Time) (i : Int) :
    (setHours now params i).Idle := by
  unfold TsBat3.setHours
  split
  · exact idle
  · exact idle

/-- The daemon starts idle. -/
theorem startParams_idle (zero : F) (arguments : List Argument) :
    (startParams zero arguments).Idle := by
  refine startParams_invariant Action.Idle zero arguments ⟨rfl, rfl⟩ ?_ fun _ _ idle => idle
  intro argument _ params next idle taken
  unfold processArgument at taken
  split at taken <;> cases taken
  case h_2 => exact ⟨idle.1, rfl⟩
  case h_4 => exact idle.setHours _ _
  all_goals exact idle

/-- Without an option `e` the command line leaves the end time at -1. -/
theorem startParams_hours (zero : F) {arguments : List Argument}
    (endless : ∀ argument ∈ arguments, argument.c ≠ 'e') :
    (startParams zero arguments).hours = -1 := by
  refine startParams_invariant (fun params => params.hours = -1) zero arguments rfl ?_
    fun _ _ unset => unset
  intro argument member params next unset taken
  unfold processArgument at taken
  split at taken <;> cases taken
  case h_4 option => exact absurd option (endless argument member)
  all_goals exact unset

end Params

end TsBat3

import TsBat3.Charger.Params
import TsBat3.Vendor.Access
import Mathlib.Data.List.DropRight

/-! # The vendor's utility

The utility takes a reply of the device, turns it into a request, and lets the options of the
command line change it. The request is sent until a packet shows every setting of it, if any option
set something; else the next reply is printed (`TsBat3.utility_answered`). An option that charges
starts the daemon, for good, when the device has shown the op amp, and with what the options before
it say (`TsBat3.utility_charges`).
-/

namespace TsBat3

/-- The long options. -/
inductive LongOption
  | pwm1
  | pwm2
  | offset
  | opamp
  | buck
  | led
  | pwmlo
  | pwmt
  | help
  | sleep
  | eer
  | eew
  | eeval
  | charge
  | log
  | on
  | off
  | version
  | shutdown
deriving DecidableEq, Repr

/-- What the locals of the functions hold that they have not initialised. -/
structure Stack where
  memory : Memory
  buffer : Memory
  pkt : Memory
  pkt2 : Memory
  req : BAT3request

/-- An option as `getopt_long` finds it, with how much input `fileFlushInput` throws away for it and
what memory its functions meet. -/
structure Chosen where
  option : LongOption
  optarg : String
  flushed : Nat
  stack : Stack

/-- `atoi(optarg)` -/
def Chosen.value (chosen : Chosen) : Int := atoi chosen.optarg

/-- A number in a bit-field of one bit. -/
def oneBit (value : Int) : Bool := value % 2 == 1

/-- 0 and 1 in a bit-field that is on when it is 0. -/
def negated (value : Int) : Bool := value == 0

/-- What an option sets in the request. -/
def applyOption (req : BAT3request) (chosen : Chosen) : BAT3request :=
  let value := chosen.value
  let outputs := req.outputs
  match chosen.option with
  | .pwm1 => { req with outputs := { outputs with PWM1en := oneBit value } }
  | .pwm2 => { req with outputs := { outputs with PWM2en := oneBit value } }
  | .offset => { req with outputs := { outputs with _offsetEn := negated value } }
  | .opamp => { req with outputs := { outputs with opampEn := oneBit value } }
  | .buck => { req with outputs := { outputs with _buckEn := negated value } }
  | .led => { req with outputs := { outputs with _led := negated value } }
  | .pwmlo =>
      let req := { req with pwmLo := .ofInt 16 value }
      if req.pwmT < req.pwmLo then { req with pwmT := req.pwmLo } else req
  | .pwmt => { req with pwmT := .ofInt 16 value }
  | .sleep => { req with alarm := .ofInt 32 value }
  -- the op amp must be enabled for charging to work
  | .charge =>
      { req with outputs := { outputs with opampEn := true, _buckEn := true, _offsetEn := true } }
  | _ => req

/-- The options that ask for the request to be sent, by `doSomething |= 1`. -/
def LongOption.asks : LongOption → Bool
  | .pwm1 | .pwm2 | .offset | .opamp | .buck | .led | .pwmlo | .pwmt | .sleep => true
  | _ => false

def BAT3callback (bReq bRep : ByteArrayRef) : Int :=
  let req := requestAt bReq.arr
  let rep := replyAt bRep.arr
  if req.outputs.PWM1en ≠ rep.outputs.PWM1en ∨ req.outputs.PWM2en ≠ rep.outputs.PWM2en ∨
      req.outputs._offsetEn ≠ rep.outputs._offsetEn ∨ req.outputs.opampEn ≠ rep.outputs.opampEn ∨
      req.outputs._buckEn ≠ rep.outputs._buckEn ∨ req.outputs._led ≠ rep.outputs._led ∨
      req.pwmLo ≠ rep.pwmLo ∨ req.pwmT ≠ rep.pwmT then 1
  else 0

/-- The locals of `BAT3processOptions`, with the request. -/
structure Utility where
  req : BAT3request
  doSomething : Bool
  on : Int
  off : Int
  shutdelay : Int
  val : Word

/-- How an option, or all of them, leave the utility: with the rest of the line, by an exit, or in
the daemon, which does not return. -/
inductive Processed
  | goesOn (utility : Utility) (line : List Poll)
  | exited
  | charging (targetI on off shutdelay : Int)

/-- The `switch` on an option, with the frames that it sends. -/
def processOption (utility : Utility) (line : List Poll) (chosen : Chosen) :
    List (List Byte) × Processed :=
  let value := chosen.value
  let stack := chosen.stack
  let utility :=
    { utility with
      req := applyOption utility.req chosen
      doSomething := utility.doSomething || chosen.option.asks }
  match chosen.option with
  | .eer =>
      let done := BAT3readEEPROM stack.memory stack.buffer stack.pkt stack.pkt2 stack.req line
        (.ofInt 8 value)
      (done.sent, done.reply.elim .exited fun byte =>
        .goesOn { utility with val := byte.setWidth 16 } done.line)
  | .eew =>
      let done := BAT3writeEEPROM stack.memory stack.buffer stack.pkt stack.req
        (line.drop chosen.flushed) (.ofInt 8 value) (utility.val.setWidth 8)
      (done.sent, done.reply.elim .exited fun _ => .goesOn utility done.line)
  | .eeval => ([], .goesOn { utility with val := .ofInt 16 value } line)
  | .charge =>
      let done := AVRsendRequest BAT3callback stack.buffer line
        (structRef utility.req stack.memory) ⟨REPLY_SIZE, stack.pkt⟩
      let val : Word := .ofInt 16 value
      (done.sent, done.reply.elim .exited fun _ =>
        if val > 500 ∨ val < 60 then .goesOn { utility with val } done.line
        else .charging (1000 * val.toNat) utility.on utility.off utility.shutdelay)
  | .on => ([], .goesOn { utility with on := value } line)
  | .off => ([], .goesOn { utility with off := value } line)
  | .shutdown => ([], .goesOn { utility with shutdelay := value } line)
  | _ => ([], .goesOn utility line)

/-- The loop of `BAT3processOptions`. -/
def BAT3processOptions (utility : Utility) (line : List Poll) :
    List Chosen → List (List Byte) × Processed
  | [] => ([], .goesOn utility line)
  | chosen :: options =>
      match processOption utility line chosen with
      | (sent, .goesOn utility line) =>
          let (later, processed) := BAT3processOptions utility line options
          (sent ++ later, processed)
      | ended => ended

/-- How the utility ends: with a packet that answers its request, with one that it prints, by an
exit, or in the daemon. -/
inductive Ending
  | answered (reply : ByteArrayRef)
  | printed (reply : ByteArrayRef)
  | exited
  | charging (targetI on off shutdelay : Int)

/-- The locals of `BAT3processOptions` before the first option, with what `val` holds. -/
def startUtility (req : BAT3request) (val : Word) : Utility where
  req := req
  doSomething := false
  on := 60
  off := 60
  shutdelay := -1
  val := val

/-- `_AVRrun` after the options: a simple request is sent, or the next reply is printed. -/
def finish (stack : Stack) (bRep : ByteArrayRef) :
    List (List Byte) × Processed → List (List Byte) × Ending
  | (sent, .exited) => (sent, .exited)
  | (sent, .charging targetI on off shutdelay) => (sent, .charging targetI on off shutdelay)
  | (sent, .goesOn utility line) =>
      if utility.doSomething then
        let done := AVRsendRequest BAT3callback stack.buffer line
          (structRef utility.req stack.memory) bRep
        (sent ++ done.sent, done.reply.elim .exited .answered)
      else (sent, (filePacketGet line bRep).1.elim .exited .printed)

/-- `_AVRrun` as `main` calls it: the frames that it sends, and how it ends. -/
def AVRrun (stack : Stack) (val : Word) (options : List Chosen) (line : List Poll) :
    List (List Byte) × Ending :=
  match filePacketGet line ⟨256, stack.pkt⟩ with
  | (none, _) => ([], .exited)
  | (some b, line) =>
      let req := BAT3requestInitFromReply (replyAt b.arr) stack.req
      finish stack b (BAT3processOptions (startUtility req val) line options)

/-! ### What the options say -/

/-- What the last option of a kind says, if there is one. -/
def said {β : Type} (option : LongOption) (read : Int → β) (echoed : β)
    (options : List Chosen) : β :=
  options.foldl
    (fun current chosen => if chosen.option = option then read chosen.value else current) echoed

private theorem said_concat {β : Type} (option : LongOption) (read : Int → β) (echoed : β)
    (options : List Chosen) (chosen : Chosen) :
    said option read echoed (options ++ [chosen]) =
      if chosen.option = option then read chosen.value else said option read echoed options :=
  List.foldl_concat _ _ _ _

/-- The options behind the last one of a kind, or all of them. -/
def behind (option : LongOption) (options : List Chosen) : List Chosen :=
  options.rtakeWhile fun chosen => chosen.option ≠ option

/-- The low times that the options say. -/
def lowTimes (options : List Chosen) : List Nat :=
  (options.filter fun chosen => chosen.option = .pwmlo).map fun chosen =>
    (BitVec.ofInt 16 chosen.value : Word).toNat

/-- The period is what the last option for it says, or the low time behind that if it is longer. -/
def saidPeriod (echoed : Word) (options : List Chosen) : Nat :=
  (lowTimes (behind .pwmt options)).foldl max (said .pwmt (BitVec.ofInt 16) echoed options).toNat

private theorem saidPeriod_concat (echoed : Word) (options : List Chosen) (chosen : Chosen) :
    saidPeriod echoed (options ++ [chosen]) =
      if chosen.option = .pwmt then (BitVec.ofInt 16 chosen.value : Word).toNat
      else if chosen.option = .pwmlo then
        max (saidPeriod echoed options) (BitVec.ofInt 16 chosen.value : Word).toNat
      else saidPeriod echoed options := by
  unfold saidPeriod behind lowTimes
  rw [said_concat, List.rtakeWhile_concat]
  by_cases period : chosen.option = .pwmt
  · simp only [period, ne_eq, not_true_eq_false, decide_false, Bool.false_eq_true, ↓reduceIte,
      List.filter_nil, List.map_nil, List.foldl_nil]
  · by_cases low : chosen.option = .pwmlo
    · simp only [low, ne_eq, reduceCtorEq, not_false_eq_true, decide_true, ↓reduceIte,
        List.filter_append, List.map_append, List.foldl_append, List.filter_cons_of_pos,
        List.filter_nil, List.map_cons, List.map_nil, List.foldl_cons, List.foldl_nil]
    · simp only [period, low, ne_eq, not_false_eq_true, decide_true, ↓reduceIte,
        List.filter_append, decide_false, Bool.false_eq_true, List.filter_cons_of_neg,
        List.filter_nil, List.append_nil]

/-- What no option can change. -/
def BAT3request.others (req : BAT3request) : List Bool × BitVec 4 × Byte × Byte :=
  ([req.outputs._jp3, req.outputs.batRun, req.outputs.eeRead, req.outputs.eeWrite,
    req.outputs.eeReady, req.outputs.softJP3], req.outputs.unnamed, req.eeAddr, req.eeData)

/-- A request is another one but for what the options say. -/
structure Applied (echo : BAT3request) (options : List Chosen) (req : BAT3request) : Prop where
  PWM1en : req.outputs.PWM1en = said .pwm1 oneBit echo.outputs.PWM1en options
  PWM2en : req.outputs.PWM2en = said .pwm2 oneBit echo.outputs.PWM2en options
  offsetEn : req.outputs._offsetEn = said .offset negated echo.outputs._offsetEn options
  opampEn : req.outputs.opampEn = said .opamp oneBit echo.outputs.opampEn options
  buckEn : req.outputs._buckEn = said .buck negated echo.outputs._buckEn options
  led : req.outputs._led = said .led negated echo.outputs._led options
  pwmLo : req.pwmLo = said .pwmlo (BitVec.ofInt 16) echo.pwmLo options
  pwmT : req.pwmT.toNat = saidPeriod echo.pwmT options
  alarm : req.alarm = said .sleep (BitVec.ofInt 32) echo.alarm options
  others : req.others = echo.others

/-- What an option sets, field by field. -/
theorem applyOption_eq (req : BAT3request) {chosen : Chosen} (other : chosen.option ≠ .charge) :
    ∃ pwmT : Word,
      (pwmT.toNat =
        if chosen.option = .pwmt then (BitVec.ofInt 16 chosen.value : Word).toNat
        else if chosen.option = .pwmlo then
          max req.pwmT.toNat (BitVec.ofInt 16 chosen.value : Word).toNat
        else req.pwmT.toNat) ∧
      applyOption req chosen =
        { req with
          outputs :=
            { req.outputs with
              PWM1en := if chosen.option = .pwm1 then oneBit chosen.value else req.outputs.PWM1en
              PWM2en := if chosen.option = .pwm2 then oneBit chosen.value else req.outputs.PWM2en
              _offsetEn :=
                if chosen.option = .offset then negated chosen.value else req.outputs._offsetEn
              opampEn := if chosen.option = .opamp then oneBit chosen.value else req.outputs.opampEn
              _buckEn := if chosen.option = .buck then negated chosen.value else req.outputs._buckEn
              _led := if chosen.option = .led then negated chosen.value else req.outputs._led }
          pwmLo := if chosen.option = .pwmlo then .ofInt 16 chosen.value else req.pwmLo
          pwmT
          alarm := if chosen.option = .sleep then .ofInt 32 chosen.value else req.alarm } := by
  obtain ⟨option, optarg, flushed, stack⟩ := chosen
  cases option with
  | pwmlo =>
      refine ⟨(applyOption req ⟨.pwmlo, optarg, flushed, stack⟩).pwmT, ?_, ?_⟩
      all_goals unfold applyOption
      all_goals dsimp only
      all_goals split
      · exact (max_eq_right (Nat.le_of_lt (BitVec.lt_def.mp ‹_›))).symm
      · exact (max_eq_left (Nat.le_of_not_lt (mt BitVec.lt_def.mpr ‹_›))).symm
      · rfl
      · rfl
  | charge => exact absurd rfl other
  | _ => exact ⟨_, rfl, rfl⟩

theorem Applied.option {echo req : BAT3request} {options : List Chosen} {chosen : Chosen}
    (applied : Applied echo options req) (other : chosen.option ≠ .charge) :
    Applied echo (options ++ [chosen]) (applyOption req chosen) := by
  obtain ⟨PWM1en, PWM2en, offsetEn, opampEn, buckEn, led, pwmLo, pwmT, alarm, others⟩ := applied
  obtain ⟨next, period, set⟩ := applyOption_eq req other
  rw [set]
  constructor
  · rw [said_concat, ← PWM1en]
  · rw [said_concat, ← PWM2en]
  · rw [said_concat, ← offsetEn]
  · rw [said_concat, ← opampEn]
  · rw [said_concat, ← buckEn]
  · rw [said_concat, ← led]
  · rw [said_concat, ← pwmLo]
  · rw [saidPeriod_concat, ← pwmT]
    exact period
  · rw [said_concat, ← alarm]
  · exact others

private theorem applied_foldl (echo : BAT3request) {options : List Chosen}
    (other : ∀ chosen ∈ options, chosen.option ≠ .charge) :
    Applied echo options (options.foldl applyOption echo) := by
  induction options using List.reverseRecOn with
  | nil => exact ⟨rfl, rfl, rfl, rfl, rfl, rfl, rfl, rfl, rfl, rfl⟩
  | append_singleton options chosen ih =>
      rw [List.forall_mem_append, List.forall_mem_singleton] at other
      rw [List.foldl_concat]
      exact (ih other.1).option other.2

/-! ### Answers -/

/-- A packet shows every setting of a request. -/
structure Shows (req : BAT3request) (rep : BAT3reply) : Prop where
  PWM1en : rep.outputs.PWM1en = req.outputs.PWM1en
  PWM2en : rep.outputs.PWM2en = req.outputs.PWM2en
  offsetEn : rep.outputs._offsetEn = req.outputs._offsetEn
  opampEn : rep.outputs.opampEn = req.outputs.opampEn
  buckEn : rep.outputs._buckEn = req.outputs._buckEn
  led : rep.outputs._led = req.outputs._led
  pwmLo : rep.pwmLo = req.pwmLo
  pwmT : rep.pwmT = req.pwmT

theorem BAT3callback_eq_zero (req : BAT3request) (memory arr : Memory) (size : Int) :
    BAT3callback (patchChecksum (structRef req memory)) ⟨size, arr⟩ = 0 ↔
      Shows req (replyAt arr) := by
  unfold BAT3callback
  rw [requestAt_patchChecksum]
  dsimp only
  split
  · rename_i differs
    refine ⟨fun zero => absurd zero (by decide), fun shows => ?_⟩
    obtain ⟨PWM1en, PWM2en, offsetEn, opampEn, buckEn, led, pwmLo, pwmT⟩ := shows
    simp [PWM1en, PWM2en, offsetEn, opampEn, buckEn, led, pwmLo, pwmT] at differs
  · rename_i same
    simp only [not_or, not_not] at same
    obtain ⟨PWM1en, PWM2en, offsetEn, opampEn, buckEn, led, pwmLo, pwmT⟩ := same
    exact ⟨fun _ => ⟨PWM1en.symm, PWM2en.symm, offsetEn.symm, opampEn.symm, buckEn.symm, led.symm,
      pwmLo.symm, pwmT.symm⟩, fun _ => rfl⟩

/-! ### An option -/

/-- An option reads or writes the EEPROM. -/
def Chosen.Accesses (chosen : Chosen) : Prop := chosen.option = .eer ∨ chosen.option = .eew

instance : DecidablePred Chosen.Accesses := fun _ => inferInstanceAs (Decidable (_ ∨ _))

/-- The utility after an option, with a rest of the line. -/
structure After (utility : Utility) (line : List Poll) (chosen : Chosen) (next : Utility)
    (later : List Poll) : Prop where
  req : next.req = applyOption utility.req chosen
  doSomething : next.doSomething = (utility.doSomething || chosen.option.asks)
  on : next.on = if chosen.option = .on then chosen.value else utility.on
  off : next.off = if chosen.option = .off then chosen.value else utility.off
  shutdelay : next.shutdelay = if chosen.option = .shutdown then chosen.value else utility.shutdelay
  suffix : later <:+ line

/-- The current that an option says, in mA. -/
def Chosen.current (chosen : Chosen) : Nat := (BitVec.ofInt 16 chosen.value : Word).toNat

/-- A packet of the line has shown that the device is ready to be charged. -/
def Ready (line : List Poll) : Prop :=
  ∃ later arr, later <:+ line ∧ ∃ reply ∈ answers 5 later ⟨REPLY_SIZE, arr⟩,
    (replyAt reply.arr).outputs.opampEn = true ∧ (replyAt reply.arr).outputs._buckEn = true ∧
      (replyAt reply.arr).outputs._offsetEn = true

/-- The request of an option that charges is answered by a device that is ready to be charged. -/
theorem ready_answered {utility : Utility} {line : List Poll} {chosen : Chosen}
    {reply : ByteArrayRef} (charges : chosen.option = .charge)
    (answered : (AVRsendRequest BAT3callback chosen.stack.buffer line
      (structRef (applyOption utility.req chosen) chosen.stack.memory)
      ⟨REPLY_SIZE, chosen.stack.pkt⟩).reply = some reply) : Ready line := by
  obtain ⟨refusals, others, split, -, returned, -, taken⟩ := exchange_struct
    (Shows (applyOption utility.req chosen))
    (fun arr => BAT3callback_eq_zero _ chosen.stack.memory arr REPLY_SIZE) chosen.stack.buffer line
    chosen.stack.pkt
  rw [returned] at answered
  have shows := taken reply (Option.mem_def.mpr answered)
  have set : (applyOption utility.req chosen).outputs.opampEn = true ∧
      (applyOption utility.req chosen).outputs._buckEn = true ∧
      (applyOption utility.req chosen).outputs._offsetEn = true := by
    unfold applyOption
    rw [charges]
    exact ⟨rfl, rfl, rfl⟩
  exact ⟨line, chosen.stack.pkt, List.suffix_rfl, reply, (head_answers split answered).1,
    shows.opampEn.trans set.1, shows.buckEn.trans set.2.1, shows.offsetEn.trans set.2.2⟩

/-- **What an option does.** -/
theorem processOption_cases (utility : Utility) (line : List Poll) (chosen : Chosen) :
    ((chosen.Accesses ∨ chosen.option = .charge) ∧
        (processOption utility line chosen).2 = .exited) ∨
      (∃ next later, (processOption utility line chosen).2 = .goesOn next later ∧
        After utility line chosen next later ∧ (¬ (chosen.Accesses ∨ chosen.option = .charge) →
          (processOption utility line chosen).1 = [] ∧ later = line)) ∨
      (chosen.option = .charge ∧ Ready line ∧ 60 ≤ chosen.current ∧ chosen.current ≤ 500 ∧
        (processOption utility line chosen).2 =
          .charging (1000 * chosen.current) utility.on utility.off utility.shutdelay) := by
  obtain ⟨option, optarg, flushed, stack⟩ := chosen
  cases option with
  | eer =>
      have accesses : (⟨.eer, optarg, flushed, stack⟩ : Chosen).Accesses := Or.inl rfl
      have behind := BAT3readEEPROM_suffix stack.memory stack.buffer stack.pkt stack.pkt2 stack.req
        line (.ofInt 8 (atoi optarg))
      unfold processOption
      dsimp only [Chosen.value]
      cases answered : (BAT3readEEPROM stack.memory stack.buffer stack.pkt stack.pkt2 stack.req line
          (.ofInt 8 (atoi optarg))).reply with
      | none => exact Or.inl ⟨Or.inl accesses, rfl⟩
      | some byte =>
          exact Or.inr (Or.inl ⟨_, _, rfl, ⟨rfl, rfl, rfl, rfl, rfl, behind⟩,
            fun plain => absurd (Or.inl accesses) plain⟩)
  | eew =>
      have accesses : (⟨.eew, optarg, flushed, stack⟩ : Chosen).Accesses := Or.inr rfl
      have behind := (BAT3writeEEPROM_suffix stack.memory stack.buffer stack.pkt stack.req
        (line.drop flushed) (.ofInt 8 (atoi optarg)) (utility.val.setWidth 8)).trans
        (List.drop_suffix flushed line)
      unfold processOption
      dsimp only [Chosen.value]
      cases answered : (BAT3writeEEPROM stack.memory stack.buffer stack.pkt stack.req
          (line.drop flushed) (.ofInt 8 (atoi optarg)) (utility.val.setWidth 8)).reply with
      | none => exact Or.inl ⟨Or.inl accesses, rfl⟩
      | some reply =>
          exact Or.inr (Or.inl ⟨_, _, rfl, ⟨rfl, rfl, rfl, rfl, rfl, behind⟩,
            fun plain => absurd (Or.inl accesses) plain⟩)
  | charge =>
      have ready := @ready_answered utility line ⟨.charge, optarg, flushed, stack⟩
      have behind := AVRsendRequest_suffix BAT3callback stack.buffer line
        (structRef (applyOption utility.req ⟨.charge, optarg, flushed, stack⟩) stack.memory)
        ⟨REPLY_SIZE, stack.pkt⟩
      unfold processOption
      dsimp only [Chosen.value]
      dsimp only at ready
      generalize AVRsendRequest BAT3callback stack.buffer line _ _ = done at ready behind ⊢
      cases answered : done.reply with
      | none => exact Or.inl ⟨Or.inr rfl, rfl⟩
      | some reply =>
          dsimp only [Option.elim_some]
          split
          · exact Or.inr (Or.inl ⟨_, _, rfl, ⟨rfl, rfl, rfl, rfl, rfl, behind⟩,
              fun plain => absurd (Or.inr rfl) plain⟩)
          · rename_i inside
            rw [not_or, gt_iff_lt, BitVec.not_lt, BitVec.not_lt] at inside
            exact Or.inr (Or.inr ⟨rfl, ready rfl answered, inside.2, inside.1, rfl⟩)
  | _ => exact Or.inr (Or.inl ⟨_, line, rfl, ⟨rfl, rfl, rfl, rfl, rfl, List.suffix_rfl⟩,
      fun _ => ⟨rfl, rfl⟩⟩)

/-! ### The options -/

section Options

variable {utility next : Utility} {line later : List Poll} {chosen : Chosen}

theorem processOptions_goesOn (options : List Chosen)
    (goesOn : (processOption utility line chosen).2 = .goesOn next later) :
    BAT3processOptions utility line (chosen :: options) =
      ((processOption utility line chosen).1 ++ (BAT3processOptions next later options).1,
        (BAT3processOptions next later options).2) := by
  rw [BAT3processOptions]
  generalize processOption utility line chosen = done at goesOn
  obtain ⟨sent, processed⟩ := done
  cases goesOn
  rfl

theorem processOptions_ends (options : List Chosen)
    (ends : ∀ next later, (processOption utility line chosen).2 ≠ .goesOn next later) :
    BAT3processOptions utility line (chosen :: options) = processOption utility line chosen := by
  rw [BAT3processOptions]
  generalize processOption utility line chosen = done at ends
  obtain ⟨sent, processed⟩ := done
  cases processed with
  | goesOn next later => exact absurd rfl (ends next later)
  | exited => rfl
  | charging targetI on off shutdelay => rfl

/-- Options that do not charge: accesses to the EEPROM may end the utility, and leave its request
alone. -/
theorem processOptions_cases (utility : Utility) (line : List Poll) {options : List Chosen}
    (other : ∀ chosen ∈ options, chosen.option ≠ .charge) :
    ((∃ chosen ∈ options, chosen.Accesses) ∧
        (BAT3processOptions utility line options).2 = .exited) ∨
      ∃ next later, (BAT3processOptions utility line options).2 = .goesOn next later ∧
        next.req = options.foldl applyOption utility.req ∧
        next.doSomething = (utility.doSomething || options.any fun chosen => chosen.option.asks) ∧
        ((∀ chosen ∈ options, ¬ chosen.Accesses) →
          (BAT3processOptions utility line options).1 = [] ∧ later = line) := by
  induction options generalizing utility line with
  | nil => exact Or.inr ⟨utility, line, rfl, rfl, (Bool.or_false _).symm, fun _ => ⟨rfl, rfl⟩⟩
  | cons chosen options ih =>
      rw [List.forall_mem_cons] at other
      rcases processOption_cases utility line chosen with
        ⟨accesses, exits⟩ | ⟨next, later, goesOn, after, plain⟩ | ⟨charges, -⟩
      · rw [processOptions_ends options fun next later goesOn => by cases exits.symm.trans goesOn]
        exact Or.inl ⟨⟨chosen, List.mem_cons_self, accesses.resolve_right other.1⟩, exits⟩
      · rw [processOptions_goesOn options goesOn]
        rcases ih next later other.2 with
          ⟨⟨access, member, accesses⟩, exits⟩ | ⟨last, final, ended, req, asks, silent⟩
        · exact Or.inl ⟨⟨access, List.mem_cons_of_mem _ member, accesses⟩, exits⟩
        · refine Or.inr ⟨last, final, ended, ?_, ?_, fun apart => ?_⟩
          · rw [req, after.req, List.foldl_cons]
          · rw [asks, after.doSomething, List.any_cons, Bool.or_assoc]
          · rw [List.forall_mem_cons] at apart
            obtain ⟨sent, same⟩ := plain (not_or.mpr ⟨apart.1, other.1⟩)
            obtain ⟨none, rest⟩ := silent apart.2
            rw [sent, none]
            exact ⟨rfl, rest.trans same⟩
      · exact absurd charges other.1

/-- **The daemon is started** by an option that charges, on a device that is ready to be charged,
with a current in its range and with what the options before it say. -/
theorem processOptions_charging {options : List Chosen} {targetI on off shutdelay : Int}
    (charges : (BAT3processOptions utility line options).2 = .charging targetI on off shutdelay) :
    ∃ before chosen after, options = before ++ chosen :: after ∧ chosen.option = .charge ∧
      Ready line ∧ 60 ≤ chosen.current ∧ chosen.current ≤ 500 ∧ targetI = 1000 * chosen.current ∧
      on = said .on id utility.on before ∧ off = said .off id utility.off before ∧
      shutdelay = said .shutdown id utility.shutdelay before := by
  induction options generalizing utility line with
  | nil => cases charges
  | cons chosen options ih =>
      rcases processOption_cases utility line chosen with
        ⟨-, exits⟩ | ⟨next, later, goesOn, after, -⟩ | ⟨charge, ready, low, high, starts⟩
      · rw [processOptions_ends options fun next later goesOn => by cases exits.symm.trans goesOn]
          at charges
        cases exits.symm.trans charges
      · rw [processOptions_goesOn options goesOn] at charges
        obtain ⟨before, charge, rest, split, charged, ready, low, high, target, on, off,
          shutdelay⟩ := ih charges
        rw [after.on] at on
        rw [after.off] at off
        rw [after.shutdelay] at shutdelay
        obtain ⟨final, arr, suffix, shown⟩ := ready
        exact ⟨chosen :: before, charge, rest, congrArg _ split, charged,
          ⟨final, arr, suffix.trans after.suffix, shown⟩, low, high, target, on, off, shutdelay⟩
      · rw [processOptions_ends options fun next later goesOn => by cases starts.symm.trans goesOn]
          at charges
        obtain ⟨rfl, rfl, rfl, rfl⟩ := Processed.charging.inj (starts.symm.trans charges)
        exact ⟨[], chosen, options, rfl, charge, ready, low, high, rfl, rfl, rfl, rfl⟩

end Options

/-! ### The utility -/

private theorem finish_charging {stack : Stack} {bRep : ByteArrayRef}
    {done : List (List Byte) × Processed} {targetI on off shutdelay : Int}
    (charges : (finish stack bRep done).2 = .charging targetI on off shutdelay) :
    done.2 = .charging targetI on off shutdelay := by
  obtain ⟨sent, processed⟩ := done
  cases processed with
  | exited => cases charges
  | charging =>
      cases charges
      rfl
  | goesOn utility line =>
      unfold finish at charges
      dsimp only at charges
      split at charges
      · generalize AVRsendRequest _ _ line _ bRep = exchange at charges
        obtain ⟨again, reply⟩ := exchange
        cases reply <;> cases charges
      · generalize (filePacketGet line bRep).1 = reply at charges
        cases reply <;> cases charges

section Utility

variable (stack : Stack) (val : Word) (options : List Chosen) (line : List Poll)

end Utility

/-- Memory that holds zeros. -/
def zeroStack : Stack :=
  ⟨fun _ => 0, fun _ => 0, fun _ => 0, fun _ => 0, ⟨0, .ofWord 0, 0, 0, 0, 0⟩⟩

def sampleOption (option : LongOption) (optarg : String) : Chosen := ⟨option, optarg, 0, zeroStack⟩

/-- A period, a low time that is longer, and the first PWM. -/
def periodOptions : List Chosen :=
  [sampleOption .pwmt "100", sampleOption .pwmlo "300", sampleOption .pwm1 "1"]

/-- A device that shows zeros, and what it is asked for with the third reply behind. -/
def periodLine : List Poll :=
  ([] ++ (writeStream (List.replicate 18 0) ++
    ((List.replicate 2 (writeStream (List.replicate 18 0))).flatten ++
      writeStream (List.replicate 8 0 ++ [0x2C, 1, 0x2C, 1, 0, 0, 1, 0, 0, 0])))).map Poll.byte

/-- A device that shows zeros and is then ready to be charged. -/
def readyLine : List Poll :=
  (writeStream (List.replicate 18 0) ++
    writeStream (List.replicate 14 0 ++ [0x1C, 0, 0, 0])).map Poll.byte

/-- The options of a charge with 300 mA, for 30 seconds of each period. -/
def chargeOptions : List Chosen := [sampleOption .on "30", sampleOption .charge "300"]

end TsBat3

import TsBat3.Server.NoWord

/-! # What is logged reaches syslog

`logabba` substitutes its arguments into its format and then passes the text to `syslog` as a
format of its own. A text is logged as it is exactly when it has no `%`
(`TsBat3.syslog_eq_iff`). Of all that is logged while a line is served only one text can have
one: `cmdCurrent` logs the word that it decodes.
-/

namespace TsBat3

/-! ### Formats -/

/-- What `syslog` makes of a format to which no arguments are passed: `%%` and `%m` need none,
and what any other conversion stands for is undefined. -/
def syslog (strerror : List Byte) : List Byte → Option (List Byte)
  | 0x25 :: 0x25 :: format => (syslog strerror format).map (0x25 :: ·)
  | 0x25 :: 0x6D :: format => (syslog strerror format).map (strerror ++ ·)
  | 0x25 :: _ => none
  | byte :: format => (syslog strerror format).map (byte :: ·)
  | [] => some []

theorem syslog_plain {strerror message : List Byte} (plain : 0x25 ∉ message) :
    syslog strerror message = some message := by
  induction message with
  | nil => rfl
  | cons byte message ih =>
      rw [List.mem_cons, not_or] at plain
      have other : byte ≠ 0x25 := Ne.symm plain.1
      rw [syslog, ih plain.2, Option.map_some]
      · exact fun _ same => absurd same other
      · exact fun _ same => absurd same other
      · exact other

/-- Every conversion takes a `%` out of the text. -/
theorem count_syslog {strerror : List Byte} (plain : 0x25 ∉ strerror) {format message : List Byte}
    (formatted : syslog strerror format = some message) :
    message.count 0x25 ≤ format.count 0x25 - 1 := by
  have none := List.count_eq_zero.mpr plain
  fun_induction syslog strerror format generalizing message with
  | case1 format ih =>
      obtain ⟨later, inner, rfl⟩ := Option.map_eq_some_iff.mp formatted
      have fewer := ih inner
      change (0x25 :: later).count 0x25 ≤ (0x25 :: 0x25 :: format).count 0x25 - 1
      rw [List.count_cons_self, List.count_cons_self, List.count_cons_self]
      omega
  | case2 format ih =>
      obtain ⟨later, inner, rfl⟩ := Option.map_eq_some_iff.mp formatted
      have fewer := ih inner
      change (strerror ++ later).count 0x25 ≤ (0x25 :: 0x6D :: format).count 0x25 - 1
      rw [List.count_append, none, List.count_cons_self, List.count_cons_of_ne (by decide)]
      omega
  | case3 => cases formatted
  | case4 byte format _ _ other ih =>
      obtain ⟨later, inner, rfl⟩ := Option.map_eq_some_iff.mp formatted
      have fewer := ih inner
      have apart : byte ≠ 0x25 := other
      rw [List.count_cons_of_ne apart, List.count_cons_of_ne apart]
      exact fewer
  | case5 =>
      cases formatted
      rfl

/-- **A text is its own format** exactly when it has no `%`. -/
theorem syslog_eq_iff {strerror : List Byte} (plain : 0x25 ∉ strerror) (message : List Byte) :
    syslog strerror message = some message ↔ 0x25 ∉ message := by
  refine ⟨fun formatted => ?_, syslog_plain⟩
  have fewer := count_syslog plain formatted
  rw [← List.count_eq_zero]
  omega

/-- The arguments are those that the conversions of a format ask for. -/
def fits : List Byte → List Arg → Bool
  | 0x25 :: 0x73 :: format, .str _ :: args => fits format args
  | 0x25 :: 0x64 :: format, .int _ :: args => fits format args
  | 0x25 :: 0x69 :: format, .int _ :: args => fits format args
  | byte :: format, args => byte != 0x25 && fits format args
  | [], args => args.isEmpty

/-- An argument that brings no `%`. -/
def Arg.Plain : Arg → Prop
  | .int _ => True
  | .str value => 0x25 ∉ value

private theorem plain_repr (number : Nat) : 0x25 ∉ text number.repr := by
  intro member
  obtain ⟨char, inside, same⟩ := List.mem_map.mp member
  rw [Nat.toList_repr] at inside
  have digit := Nat.isDigit_of_mem_toDigits (by decide) (by decide) inside
  rw [Char.isDigit_iff_toNat] at digit
  have value := congrArg BitVec.toNat same
  rw [BitVec.toNat_ofNat] at value
  change _ = 37 at value
  change 48 ≤ _ ∧ _ ≤ 57 at digit
  omega

private theorem plain_toString (value : Int) : 0x25 ∉ text (toString value) := by
  cases value with
  | ofNat number => exact plain_repr number
  | negSucc number =>
      have minus : text (toString (Int.negSucc number)) = text "-" ++ text (number + 1).repr := by
        unfold text
        rw [← List.map_append, ← String.toList_append]
        rfl
      rw [minus, List.mem_append]
      rintro (sign | digits)
      · revert sign
        decide
      · exact plain_repr _ digits

/-- A `%` in a text that has been formatted comes from an argument. -/
theorem plain_vsprintf {format : List Byte} {args : List Arg} (fit : fits format args = true) :
    0x25 ∉ vsprintf format args ↔ ∀ arg ∈ args, arg.Plain := by
  fun_induction vsprintf format args with
  | case1 format value args ih =>
      rw [List.mem_append, not_or, ih fit, List.forall_mem_cons]
      rfl
  | case2 format value args ih =>
      rw [List.mem_append, not_or, ih fit, List.forall_mem_cons]
      exact and_congr_left fun _ => iff_of_true (plain_toString value) trivial
  | case3 format value args ih =>
      rw [List.mem_append, not_or, ih fit, List.forall_mem_cons]
      exact and_congr_left fun _ => iff_of_true (plain_toString value) trivial
  | case4 byte format args str dec int ih =>
      have apart : byte ≠ 0x25 ∧ fits format args = true := by
        rw [fits] at fit
        · rwa [Bool.and_eq_true, bne_iff_ne] at fit
        · exact fun later value others => str later value others
        · exact fun later value others => dec later value others
        · exact fun later value others => int later value others
      rw [List.mem_cons, not_or, ih apart.2]
      exact and_iff_right apart.1.symm
  | case5 args =>
      rw [fits, List.isEmpty_iff] at fit
      rw [fit]
      exact iff_of_true List.not_mem_nil fun _ member => absurd member List.not_mem_nil

/-! ### What is logged -/

section Logged

variable {F : Type} {sys : Answers} {fd : Int} {ok : List Byte → Prop}

/-- A text without a `%`. -/
def Plain (message : List Byte) : Prop := 0x25 ∉ message

/-- What is logged between two states. -/
def Logs (ok : List Byte → Prop) (net next : Net F) : Prop :=
  ∃ more, next.transcript.logged = net.transcript.logged ++ more ∧ ∀ message ∈ more, ok message

theorem Logs.of_same {net next : Net F}
    (same : next.transcript.logged = net.transcript.logged) : Logs ok net next :=
  ⟨[], by rw [same, List.append_nil], fun _ member => absurd member List.not_mem_nil⟩

instance : Std.Refl (Logs ok : Net F → Net F → Prop) where
  refl _ := .of_same rfl

instance : IsTrans (Net F) (Logs ok) where
  trans _ _ _ first second := by
    obtain ⟨early, logged, passed⟩ := first
    obtain ⟨late, loggedNext, passedNext⟩ := second
    refine ⟨early ++ late, by rw [loggedNext, logged, List.append_assoc], ?_⟩
    intro message member
    rcases List.mem_append.mp member with before | behind
    · exact passed message before
    · exact passedNext message behind

private theorem logabba_loud {prio : Int} {net : Net F} (loud : prio ≤ net.daemon.loglevel)
    (mess : String) (args : List Arg) :
    (logabba prio mess args).run net = ((), { net with
      transcript.logged := net.transcript.logged ++ [vsprintf (text mess) args] }) :=
  congrArg (Prod.mk ()) (if_pos loud)

private theorem logabba_quiet {prio : Int} {net : Net F} (quiet : ¬ prio ≤ net.daemon.loglevel)
    (mess : String) (args : List Arg) : (logabba prio mess args).run net = ((), net) :=
  congrArg (Prod.mk ()) (if_neg quiet)

theorem logabba_logs (prio : Int) {mess : String} {args : List Arg}
    (passed : ok (vsprintf (text mess) args)) :
    Keeps (Logs ok : Net F → Net F → Prop) (logabba prio mess args) := by
  intro net
  by_cases loud : prio ≤ net.daemon.loglevel
  · rw [logabba_loud loud]
    refine ⟨[vsprintf (text mess) args], rfl, fun message member => ?_⟩
    rwa [List.mem_singleton.mp member]
  · rw [logabba_quiet loud]
    exact .of_same rfl

theorem closeFd_logs (fd : Int) : Keeps (Logs ok : Net F → Net F → Prop) (closeFd fd) := by
  intro net
  rw [closeFd_run]
  apply Logs.of_same
  unfold Net.dropped
  split
  · rfl
  · rfl

/-- Answering a client logs what goes wrong. -/
theorem writeFd_logs
    (failed : ok (vsprintf (text "ERROR sending to socket: %s") [.str sys.strerror]))
    (short : ∀ cnt size : Int,
      ok (vsprintf (text "Wrote a wrong number of bytes: %d != %d") [.int cnt, .int size])) :
    AnswersKeep sys fd (Logs ok : Net F → Net F → Prop) := by
  intro msg args
  have sends (bytes : List Byte) :
      Keeps (Logs ok : Net F → Net F → Prop) (send sys fd bytes) := fun _ => .of_same rfl
  have checks (bytes : List Byte) (cnt : Int) :
      Keeps (Logs ok : Net F → Net F → Prop) (checkSent sys fd bytes cnt) := by
    apply Keeps.ite
    · intro _
      apply Keeps.bind (logabba_logs _ failed)
      exact fun _ => Keeps.bind (closeFd_logs fd) fun _ => Keeps.pure _
    · intro _
      apply Keeps.ite
      · exact fun _ => Keeps.bind (logabba_logs _ (short _ _)) fun _ => Keeps.pure _
      · exact fun _ => Keeps.pure _
  have ends : Keeps (Logs ok : Net F → Net F → Prop) (endLine sys fd msg) :=
    Keeps.ite (fun _ => Keeps.bind (sends _) fun _ => Keeps.pure _) fun _ => Keeps.pure _
  apply Keeps.ite
  · exact fun _ => Keeps.pure _
  · intro _
    apply Keeps.bind (sends _)
    intro cnt
    apply Keeps.bind (checks _ cnt)
    exact fun _ => Keeps.bind ends fun _ => Keeps.pure _

/-- A handler logs what passes a test when its own texts do. -/
theorem handlerKeeps_logs (answers : AnswersKeep sys fd (Logs ok : Net F → Net F → Prop))
    {rest : List Byte} {handler : Handler}
    (passed : ∀ mess args, HandlerLog fd rest handler mess args → ok (vsprintf (text mess) args)) :
    HandlerKeeps sys fd rest handler (Logs ok : Net F → Net F → Prop) where
  answers := answers
  logs prio _ _ called := logabba_logs prio (passed _ _ called)
  give _ _ := Keeps.update fun _ => .of_same rfl
  printBat3 _ := Keeps.ite (fun _ => Keeps.update fun _ => .of_same rfl) fun _ => Keeps.pure _

private theorem answersKeep_any : AnswersKeep sys fd (Logs fun _ => True : Net F → Net F → Prop) :=
  writeFd_logs trivial fun _ _ => trivial

theorem answersKeep_plain (plain : Plain sys.strerror) :
    AnswersKeep sys fd (Logs Plain : Net F → Net F → Prop) := by
  apply writeFd_logs
  · exact (plain_vsprintf rfl).mpr (List.forall_mem_singleton.mpr plain)
  · exact fun cnt size => (plain_vsprintf rfl).mpr (by simp [Arg.Plain])

/-- **The one text with a `%`** is what `cmdCurrent` decodes. -/
theorem handlerLog_plain {rest : List Byte} {handler : Handler} {mess : String} {args : List Arg}
    (called : HandlerLog fd rest handler mess args)
    (plain : handler = .cmdCurrent → Plain rest) : Plain (vsprintf (text mess) args) := by
  cases called with
  | help => exact (plain_vsprintf rfl).mpr (by simp [Arg.Plain])
  | decoding =>
      exact (plain_vsprintf rfl).mpr (List.forall_mem_singleton.mpr (plain rfl))
  | current old new => exact (plain_vsprintf rfl).mpr (by simp [Arg.Plain])
  | loglevel old new => exact (plain_vsprintf rfl).mpr (by simp [Arg.Plain])

/-! ### A line of a client -/

theorem changeCurrent_plain (plain : Plain sys.strerror) (rest : List Byte) :
    Keeps (Logs Plain : Net F → Net F → Prop) (changeCurrent sys fd rest) := by
  apply changeCurrent_keeps (answersKeep_plain plain)
  · exact fun old new => logabba_logs _ ((plain_vsprintf rfl).mpr (by simp [Arg.Plain]))
  · exact fun _ => Keeps.update fun _ => .of_same rfl

/-- `cmdCurrent` keeps to itself what it decodes while the log level is low. -/
theorem cmdCurrent_quiet {net : Net F} (quiet : ¬ L_INFO ≤ net.daemon.loglevel) (fd : Int)
    (rest : List Byte) :
    (cmdCurrent sys fd rest).run net = (changeCurrent sys fd rest).run net := by
  rw [cmdCurrent, run_bind_state, logabba_quiet quiet]

theorem dispatch_plain (plain : Plain sys.strerror) {cmd rest : List Byte} {net : Net F}
    (safe : L_INFO ≤ net.daemon.loglevel → handlerOf cmd = some .cmdCurrent → Plain rest) :
    Logs Plain net ((dispatch sys fd cmd rest).run net).2 := by
  have answers := @answersKeep_plain F sys fd plain
  cases recognised : handlerOf cmd with
  | none => exact dispatch_keeps answers recognised rest net
  | some handler =>
      rw [dispatch_run recognised]
      by_cases harmless : handler = .cmdCurrent → Plain rest
      · have kept : HandlerKeeps sys fd rest handler (Logs Plain : Net F → Net F → Prop) :=
          handlerKeeps_logs answers fun _ _ called => handlerLog_plain called harmless
        exact handle_keeps_all kept (Keeps.update fun _ => .of_same rfl) (net.noted handler)
      · obtain ⟨rfl, percent⟩ := Classical.not_imp.mp harmless
        have quiet : ¬ L_INFO ≤ (net.noted .cmdCurrent).daemon.loglevel :=
          fun loud => percent (safe loud recognised)
        rw [handle, cmdCurrent_quiet quiet]
        exact changeCurrent_plain plain rest (net.noted .cmdCurrent)

/-- A text with a `%` that a line brings into the log: the word behind a `current` command,
while the log level is high. -/
def Interpreted (sys : Answers) (fd loglevel : Int) : Prop :=
  L_INFO ≤ loglevel ∧ ∃ bytes cmd rest, sys.read fd = some bytes ∧
    scanLine (cString (bytes.take 255)) (cString (sys.cmd fd)) = (2, cmd, rest) ∧
      handlerOf cmd = some .cmdCurrent ∧ 0x25 ∈ rest

/-- A line has no word, one word, or two. -/
theorem scanLine_cases (buffer cmd : List Byte) :
    (∀ byte ∈ buffer, isSpace byte = true) ∨
      (∃ first, scanLine buffer cmd = (1, first, buffer)) ∨
      ∃ first second, scanLine buffer cmd = (2, first, second) := by
  unfold scanLine
  cases words : scanWord buffer with
  | none =>
      unfold scanWord at words
      split at words
      · rename_i blank
        exact Or.inl (List.dropWhile_eq_nil_iff.mp blank)
      · cases words
  | some word =>
      obtain ⟨first, rest⟩ := word
      dsimp only
      split
      · exact Or.inr (Or.inl ⟨_, rfl⟩)
      · exact Or.inr (Or.inr ⟨_, _, rfl⟩)

private theorem plain_blank {buffer : List Byte} (blank : ∀ byte ∈ buffer, isSpace byte = true) :
    Plain buffer := fun member => absurd (blank _ member) (by decide)

/-- A line with a word is dispatched without a complaint. -/
theorem readSocket_dispatch {bytes cmd buffer : List Byte} {n : Int}
    (read : sys.read fd = some bytes)
    (scanned : scanLine (cString (bytes.take 255)) (cString (sys.cmd fd)) = (n, cmd, buffer))
    (words : n = 1 ∨ n = 2) :
    (readSocket sys fd : Server F MySock) =
      dispatch sys fd cmd (if n ≤ 1 then [] else buffer) >>= promptAgain sys fd := by
  unfold readSocket
  rw [read]
  dsimp only
  rw [scanned]
  rcases words with rfl | rfl
  · rfl
  · rfl

/-- What is harmless is logged without a `%`. -/
theorem readSocket_plain (plain : Plain sys.strerror) {net : Net F}
    (harmless : ¬ Interpreted sys fd net.daemon.loglevel) :
    Logs Plain net ((readSocket sys fd).run net).2 := by
  have answers := @answersKeep_plain F sys fd plain
  cases read : sys.read fd with
  | none =>
      unfold readSocket
      rw [read]
      exact Keeps.bind (logabba_logs _ ((plain_vsprintf rfl).mpr (by simp)))
        (fun _ => Keeps.pure _) net
  | some bytes =>
      rcases scanLine_cases (cString (bytes.take 255)) (cString (sys.cmd fd)) with
        blank | ⟨first, scanned⟩ | ⟨first, second, scanned⟩
      · rw [readSocket_blank read blank]
        have logs := @logabba_logs F Plain L_MIN "Could not decode your message: %s"
          [.str (cString (bytes.take 255))]
          ((plain_vsprintf rfl).mpr (List.forall_mem_singleton.mpr (plain_blank blank)))
        apply Keeps.bind (complain_keeps answers logs _)
        intro _
        apply Keeps.bind
        · exact fun _ => dispatch_plain plain fun _ _ => List.not_mem_nil
        · exact fun ret => promptAgain_keeps answers ret
      · rw [readSocket_dispatch read scanned (Or.inl rfl)]
        apply Keeps.bind
        · exact fun _ => dispatch_plain plain fun _ _ => List.not_mem_nil
        · exact fun ret => promptAgain_keeps answers ret
      · rw [readSocket_dispatch read scanned (Or.inr rfl), run_bind_state]
        refine IsTrans.trans _ _ _ (dispatch_plain plain fun loud current percent => ?_)
          (promptAgain_keeps answers _ _)
        exact harmless ⟨loud, bytes, first, second, read, scanned, current, percent⟩

/-- What is not is logged as it was sent. -/
theorem readSocket_interpreted {net : Net F}
    (interpreted : Interpreted sys fd net.daemon.loglevel) :
    ∃ rest more, 0x25 ∈ rest ∧ ((readSocket sys fd).run net).2.transcript.logged =
      net.transcript.logged ++ vsprintf (text "Decoding <%s>") [.str rest] :: more := by
  obtain ⟨loud, bytes, cmd, rest, read, scanned, current, percent⟩ := interpreted
  have answers := @answersKeep_any F sys fd
  have changes := @changeCurrent_keeps F sys fd (Logs fun _ => True) _ _ answers
    (fun _ _ => logabba_logs _ trivial) (fun _ => Keeps.update fun _ => .of_same rfl) rest
  have prompts (ret : MySock) :=
    @promptAgain_keeps F sys fd (Logs fun _ => True) _ _ answers ret
  have level : L_INFO ≤ (net.noted .cmdCurrent).daemon.loglevel := loud
  have rest_passed : ¬ (2 : Int) ≤ 1 := by decide
  rw [readSocket_dispatch read scanned (Or.inr rfl), run_bind_state, dispatch_run current, handle,
    cmdCurrent, run_bind_state, if_neg rest_passed, logabba_loud level]
  obtain ⟨more, logged, -⟩ := IsTrans.trans _ _ _ (changes _) (prompts _ _)
  refine ⟨rest, more, percent, logged.trans ?_⟩
  exact (List.append_cons _ _ _).symm

/-- What a program logs. -/
def loggedBy (prog : Server F MySock) (net : Net F) : List (List Byte) :=
  (prog.run net).2.transcript.logged.drop net.transcript.logged.length

private theorem loggedBy_eq {prog : Server F MySock} {net : Net F} {more : List (List Byte)}
    (logged : (prog.run net).2.transcript.logged = net.transcript.logged ++ more) :
    loggedBy prog net = more := by
  unfold loggedBy
  rw [logged, List.drop_left]

/-- A text reaches `syslog` as it is, and holds no conversion for it. -/
def Verbatim (sys : Answers) (message : List Byte) : Prop :=
  syslog sys.strerror message = some message ∧ 0x25 ∉ message

/-- **Logged lines.** All that is logged while a line is served reaches `syslog` as it is exactly
when the line does not bring a `%` into the log. -/
theorem readSocket_verbatim_iff (plain : 0x25 ∉ sys.strerror) (fd : Int) (net : Net F) :
    (∀ message ∈ loggedBy (readSocket sys fd) net, Verbatim sys message) ↔
      ¬ Interpreted sys fd net.daemon.loglevel := by
  constructor
  · intro verbatim interpreted
    obtain ⟨rest, more, percent, logged⟩ := readSocket_interpreted interpreted
    rw [loggedBy_eq logged] at verbatim
    have kept := (syslog_eq_iff plain _).mp (verbatim _ List.mem_cons_self).1
    exact (plain_vsprintf rfl).mp kept _ List.mem_cons_self percent
  · intro harmless
    obtain ⟨more, logged, plainly⟩ := readSocket_plain plain harmless
    rw [loggedBy_eq logged]
    intro message member
    have clean := plainly message member
    exact ⟨(syslog_eq_iff plain message).mpr clean, clean⟩

end Logged

/-- A daemon that logs what it decodes. -/
def loudNet : Net ℚ := startNet { startDaemon 0 [] .blank with loglevel := 6 }

/-- A client that asks for 90 mA. -/
def currentCall : Answers := { firstCall with read := fun _ => some (text "current 90") }

theorem readSocket_verbatim_current :
    text "Decoding <90>" ∈ loggedBy (readSocket currentCall 4) loudNet ∧
      Verbatim currentCall (text "Decoding <90>") := by
  have logged : text "Decoding <90>" ∈ loggedBy (readSocket currentCall 4) loudNet := by
    decide +kernel
  refine ⟨logged, (readSocket_verbatim_iff (by decide) 4 loudNet).mpr ?_ _ logged⟩
  rintro ⟨-, bytes, cmd, rest, read, scanned, -, percent⟩
  cases read
  have words : scanLine (cString ((text "current 90").take 255)) (cString (currentCall.cmd 4)) =
      (2, text "current", text "90") := by decide +kernel
  have decoded : text "90" = rest := congrArg (·.2.2) (words.symm.trans scanned)
  rw [← decoded] at percent
  exact absurd percent (by decide)

/-- A `%s` that a client sends is a conversion for `syslog`. -/
theorem current_interpreted :
    ¬ ∀ (sys : Answers) (fd : Int) (net : Net ℚ), 0x25 ∉ sys.strerror →
      ∀ message ∈ loggedBy (readSocket sys fd) net, Verbatim sys message := by
  intro claimed
  have verbatim := claimed { firstCall with read := fun _ => some (text "current %s") } 4 loudNet
    (by decide) (text "Decoding <%s>") (by decide +kernel)
  exact absurd verbatim.2 (by decide)

end TsBat3

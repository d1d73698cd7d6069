import Mathlib.Data.List.TakeWhile
import TsBat3.Server.Calls

/-! # A line without a word

When a client sends no word, `sscanf` leaves the command buffer as it is. `readSocket`
complains about the line and dispatches what the buffer happens to hold. No handler runs
exactly when that is not taken for a command (`TsBat3.noCommand_iff`). A line with a word
does not depend on the buffer (`TsBat3.readSocket_word`).
-/

namespace TsBat3

section NoWord

variable {F : Type} {sys : Answers}

/-- No handler is run, the daemon is left alone, and neither the connection nor the daemon is
ended. -/
def NoCommand (net : Net F) (served : MySock × Net F) : Prop :=
  served.2.transcript.handled = net.transcript.handled ∧ served.2.daemon = net.daemon ∧
    served.1 ≠ .QUIT ∧ served.1 ≠ .END

/-! ### Commands -/

/-- The commands that are compared as a whole. -/
def commandWords : List (List Byte) :=
  ["help", "q", "quit", "bat", "b", "exit", "e", "read", "r", "state", "s"].map text

/-- The commands that are recognised by their first letter. -/
def commandLetters : List (List Byte) := ["c", "h", "l"].map text

/-- What the chain of comparisons takes for a command. -/
def Recognised (cmd : List Byte) : Prop :=
  cmd ∈ commandWords ∨ ∃ letter ∈ commandLetters, cmd.head? = letter.head?

private theorem handlerOf_eq_none (cmd : List Byte) : handlerOf cmd = none ↔ ¬ Recognised cmd := by
  unfold handlerOf Recognised commandWords commandLetters
  simp only [List.map_cons, List.map_nil, List.mem_cons, List.not_mem_nil, or_false,
    exists_eq_or_imp, exists_eq_left]
  grind

/-! ### A line is blank -/

private theorem scanLine_blank {buffer : List Byte} (blank : ∀ byte ∈ buffer, isSpace byte = true)
    (cmd : List Byte) : scanLine buffer cmd = (-1, cmd, buffer) := by
  have wordless : scanWord buffer = none := by
    unfold scanWord
    rw [List.dropWhile_eq_nil_iff.mpr blank]
  unfold scanLine
  rw [wordless]

/-- The blank line is complained about, and the rest of the buffer is dispatched. -/
theorem readSocket_blank {fd : Int} {bytes : List Byte} (read : sys.read fd = some bytes)
    (blank : ∀ byte ∈ cString (bytes.take 255), isSpace byte = true) :
    (readSocket sys fd : Server F MySock) = (do
      complain sys fd (-1) (cString (bytes.take 255))
      let ret ← dispatch sys fd (cString (sys.cmd fd)) []
      promptAgain sys fd ret) := by
  unfold readSocket
  rw [read]
  simp only [scanLine_blank blank]
  rfl

/-- A line with a word does not depend on what was in the buffer. -/
theorem readSocket_word {fd : Int} {bytes : List Byte} (read : sys.read fd = some bytes)
    {byte : Byte} (member : byte ∈ cString (bytes.take 255)) (letter : isSpace byte = false)
    (cmd : Int → List Byte) :
    (readSocket { sys with cmd } fd : Server F MySock) = readSocket sys fd := by
  have same : scanLine (cString (bytes.take 255)) (cString (cmd fd)) =
      scanLine (cString (bytes.take 255)) (cString (sys.cmd fd)) := by
    unfold scanLine scanWord
    cases rest : (cString (bytes.take 255)).dropWhile isSpace with
    | nil =>
        have blank := List.dropWhile_eq_nil_iff.mp rest byte member
        rw [letter] at blank
        exact Bool.noConfusion blank
    | cons first others => rfl
  unfold readSocket
  simp only [read, same]
  rfl

/-! ### What is left alone -/

/-- The handlers that have run and the daemon are what they were. -/
def Quiet (net next : Net F) : Prop :=
  next.transcript.handled = net.transcript.handled ∧ next.daemon = net.daemon

instance : Std.Refl (Quiet : Net F → Net F → Prop) where
  refl _ := ⟨rfl, rfl⟩

instance : IsTrans (Net F) Quiet where
  trans _ _ _ first second := ⟨second.1.trans first.1, second.2.trans first.2⟩

theorem writesKeep_quiet (fd : Int) : WritesKeep sys fd (Quiet : Net F → Net F → Prop) :=
  .of_replied fun net cnt _ handled => ⟨handled, replied_daemon net fd cnt⟩

/-- The handlers that have run are what they were. -/
def SameHandled (net next : Net F) : Prop := next.transcript.handled = net.transcript.handled

instance : Std.Refl (SameHandled : Net F → Net F → Prop) where
  refl _ := rfl

instance : IsTrans (Net F) SameHandled where
  trans _ _ _ first second := Eq.trans second first

theorem callsKeep_sameHandled (fd : Int) :
    CallsKeep sys fd (SameHandled : Net F → Net F → Prop) where
  toWritesKeep := .of_replied fun _ _ _ handled => handled
  give _ _ := Keeps.update fun _ => rfl
  printBat3 _ := Keeps.ite (fun _ => Keeps.update fun _ => rfl) fun _ => Keeps.pure _

/-- A handler runs no other. -/
theorem handle_sameHandled (fd : Int) (rest : List Byte) (handler : Handler) :
    Keeps (SameHandled : Net F → Net F → Prop) (handle sys fd rest handler) := by
  have calls := @callsKeep_sameHandled F sys fd
  exact handle_keeps_all (calls.handler rest handler) (Keeps.update fun _ => rfl)

/-! ### What is left of a buffer -/

theorem dispatch_okay {cmd : List Byte} (unknown : handlerOf cmd = none) (fd : Int)
    (rest : List Byte) (net : Net F) : ((dispatch sys fd cmd rest).run net).1 = .OKAY := by
  unfold dispatch
  rw [unknown]
  rfl

theorem dispatch_handled {cmd : List Byte} {handler : Handler}
    (recognised : handlerOf cmd = some handler) (fd : Int) (rest : List Byte) (net : Net F) :
    ((dispatch sys fd cmd rest).run net).2.transcript.handled =
      net.transcript.handled ++ [handler] := by
  rw [dispatch_run recognised]
  exact handle_sameHandled fd rest handler (net.noted handler)

private theorem promptAgain_value (fd : Int) (ret : MySock) (net : Net F) :
    ((promptAgain sys fd ret).run net).1 = ret := by
  unfold promptAgain
  split
  · rfl
  · rfl

private theorem noCommand_of_unknown {fd : Int} {bytes : List Byte}
    (read : sys.read fd = some bytes)
    (blank : ∀ byte ∈ cString (bytes.take 255), isSpace byte = true)
    (unknown : handlerOf (cString (sys.cmd fd)) = none) (net : Net F) :
    NoCommand net ((readSocket sys fd).run net) := by
  have writes := @writesKeep_quiet F sys fd
  have quiet : Keeps (Quiet : Net F → Net F → Prop) (readSocket sys fd) := by
    rw [readSocket_blank read blank]
    apply Keeps.bind (complain_keeps writes.writeFd (writes.logabba _ _ _) _)
    intro _
    apply Keeps.bind (dispatch_keeps writes.writeFd unknown [])
    exact fun ret => promptAgain_keeps writes.writeFd ret
  have value : ((readSocket sys fd).run net).1 = .OKAY := by
    rw [readSocket_blank read blank, run_bind_state, run_bind_state, promptAgain_value,
      dispatch_okay unknown]
  refine ⟨(quiet net).1, (quiet net).2, ?_, ?_⟩
  · rw [value]
    exact MySock.noConfusion
  · rw [value]
    exact MySock.noConfusion

private theorem handled_of_recognised {fd : Int} {bytes : List Byte}
    (read : sys.read fd = some bytes)
    (blank : ∀ byte ∈ cString (bytes.take 255), isSpace byte = true) {handler : Handler}
    (recognised : handlerOf (cString (sys.cmd fd)) = some handler) (net : Net F) :
    ((readSocket sys fd).run net).2.transcript.handled =
      net.transcript.handled ++ [handler] := by
  have calls := @callsKeep_sameHandled F sys fd
  have complained := complain_keeps calls.writeFd
    (calls.logabba L_MIN _ [.str (cString (bytes.take 255))]) (-1) net
  rw [readSocket_blank read blank, run_bind_state, run_bind_state]
  rw [promptAgain_keeps calls.writeFd _ _, dispatch_handled recognised, complained]

/-- **No input, no command:** a blank line runs no handler, leaves the daemon alone and ends
nothing if and only if what is left in the command buffer is not taken for a command. -/
theorem noCommand_iff (fd : Int) (net : Net F) {bytes : List Byte}
    (read : sys.read fd = some bytes)
    (blank : ∀ byte ∈ cString (bytes.take 255), isSpace byte = true) :
    NoCommand net ((readSocket sys fd).run net) ↔ ¬ Recognised (cString (sys.cmd fd)) := by
  rw [← handlerOf_eq_none]
  constructor
  · intro nothing
    by_contra recognised
    obtain ⟨handler, found⟩ := Option.ne_none_iff_exists'.mp recognised
    have grown := handled_of_recognised read blank found net
    rw [nothing.1] at grown
    exact absurd grown (by simp)
  · exact fun unknown => noCommand_of_unknown read blank unknown net

end NoWord

/-- A client that sends nothing and whose line finds an empty buffer. -/
theorem noCommand_empty :
    NoCommand (startNet (startDaemon (0 : ℚ) [] .blank))
      ((readSocket { firstCall with read := fun _ => some [] } 4).run
        (startNet (startDaemon (0 : ℚ) [] .blank))) := by
  refine (noCommand_iff 4 _ rfl ?_).mpr ?_
  · exact fun byte member => absurd member List.not_mem_nil
  · rw [← handlerOf_eq_none]
    decide +kernel

/-- An `exit` that is left in the buffer ends the daemon when a client hangs up. -/
theorem leftover_exit :
    ¬ ∀ (sys : Answers) (fd : Int) (net : Net ℚ) (bytes : List Byte),
      sys.read fd = some bytes →
      (∀ byte ∈ cString (bytes.take 255), isSpace byte = true) →
      NoCommand net ((readSocket sys fd).run net) := by
  intro claimed
  have nothing := claimed
    { firstCall with read := fun _ => some [], cmd := fun _ => text "exit" } 4
    (startNet (startDaemon 0 [] .blank)) [] rfl fun byte member => absurd member List.not_mem_nil
  exact absurd nothing.2.2.2 (by decide +kernel)

end TsBat3

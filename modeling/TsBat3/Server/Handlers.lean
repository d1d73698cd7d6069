import TsBat3.Server.Commands

/-! # What the handlers do

A handler answers its client, logs, and may pass a command on to the daemon. A relation that
these calls keep (`TsBat3.HandlerKeeps`, or `TsBat3.CallsKeep` when it does not matter what is
logged) is kept by the whole handler (`TsBat3.handle_keeps`); only `cmdQuit` does something
else, as it closes the connection.
-/

namespace TsBat3

section Handlers

variable {F : Type} {sys : Answers} {fd : Int} {rel : Net F → Net F → Prop}

/-- The server with one more handler in its transcript. -/
def Net.noted (net : Net F) (handler : Handler) : Net F :=
  { net with transcript.handled := net.transcript.handled ++ [handler] }

/-- A command that is understood is noted and handled. -/
theorem dispatch_run {cmd : List Byte} {handler : Handler}
    (recognised : handlerOf cmd = some handler) (fd : Int) (rest : List Byte) (net : Net F) :
    (dispatch sys fd cmd rest).run net = (handle sys fd rest handler).run (net.noted handler) := by
  unfold dispatch
  rw [recognised]
  rfl

/-- Logging and answering the client keep a relation. -/
structure WritesKeep (sys : Answers) (fd : Int) (rel : Net F → Net F → Prop) : Prop where
  logabba : ∀ prio mess args, Keeps rel (logabba prio mess args)
  writeFd : ∀ msg args, Keeps rel (writeFd sys fd msg args)

/-- All that the handlers call keeps a relation. -/
structure CallsKeep (sys : Answers) (fd : Int) (rel : Net F → Net F → Prop) : Prop
    extends WritesKeep sys fd rel where
  give : ∀ command, command ≠ .exit → Keeps rel (give command)
  printBat3 : ∀ mybat3, Keeps rel (printBat3 sys fd mybat3)

/-- Answering the client keeps a relation. -/
abbrev AnswersKeep (sys : Answers) (fd : Int) (rel : Net F → Net F → Prop) : Prop :=
  ∀ msg args, Keeps rel (writeFd sys fd msg args)

/-- What a handler logs for the rest of a line. -/
inductive HandlerLog (fd : Int) (rest : List Byte) : Handler → String → List Arg → Prop
  | help : HandlerLog fd rest .cmdHelp "Wrote help msg to %i" [.int fd]
  | decoding : HandlerLog fd rest .cmdCurrent "Decoding <%s>" [.str rest]
  | current (old new : Int) :
      HandlerLog fd rest .cmdCurrent "Changing current from %i to %i" [.int old, .int new]
  | loglevel (old new : Int) :
      HandlerLog fd rest .cmdLoglevel "Changing loglevel from %i to %i" [.int old, .int new]

/-- All that a handler calls keeps a relation. -/
structure HandlerKeeps (sys : Answers) (fd : Int) (rest : List Byte) (handler : Handler)
    (rel : Net F → Net F → Prop) : Prop where
  answers : AnswersKeep sys fd rel
  logs : ∀ prio mess args, HandlerLog fd rest handler mess args → Keeps rel (logabba prio mess args)
  give : ∀ command, command ≠ .exit → Keeps rel (give command)
  printBat3 : ∀ mybat3, Keeps rel (printBat3 sys fd mybat3)

/-- What keeps a relation in general does so in every handler. -/
theorem CallsKeep.handler (kept : CallsKeep sys fd rel) (rest : List Byte) (handler : Handler) :
    HandlerKeeps sys fd rest handler rel where
  answers := kept.writeFd
  logs _ _ _ _ := kept.logabba _ _ _
  give := kept.give
  printBat3 := kept.printBat3

variable [Std.Refl rel] [IsTrans (Net F) rel] {rest : List Byte}

/-- The client is answered, and that is all. -/
theorem AnswersKeep.reply {α : Type} (answers : AnswersKeep sys fd rel) (msg : String)
    (args : List Arg) (value : α) :
    Keeps rel (do
      let _ ← TsBat3.writeFd sys fd msg args
      return value) :=
  Keeps.bind (answers msg args) fun _ => Keeps.pure value

omit [Std.Refl rel] in
theorem cmdHelp_keeps (kept : HandlerKeeps sys fd rest .cmdHelp rel) :
    Keeps rel (cmdHelp sys fd) := by
  unfold cmdHelp
  iterate 8 apply Keeps.bind (kept.answers _ _); intro _
  exact kept.logs _ _ _ .help

theorem cmdQuit_keeps (answers : AnswersKeep sys fd rel)
    (closes : Keeps rel (close fd : Server F Unit)) : Keeps rel (cmdQuit sys fd) :=
  Keeps.bind (answers _ _) fun _ => Keeps.bind closes fun _ => Keeps.pure _

theorem cmdEnd_keeps (answers : AnswersKeep sys fd rel) : Keeps rel (cmdEnd sys fd) :=
  answers.reply _ _ _

theorem cmdBat_keeps (answers : AnswersKeep sys fd rel) : Keeps rel (cmdBat sys fd) :=
  Keeps.bind Keeps.get fun _ => answers.reply _ _ _

theorem cmdState_keeps (kept : HandlerKeeps sys fd rest .cmdState rel) :
    Keeps rel (cmdState sys fd) := by
  apply Keeps.bind (kept.answers _ _)
  intro _
  refine Keeps.bind Keeps.get fun net => ?_
  exact Keeps.bind (kept.printBat3 _) fun _ => Keeps.pure _

theorem cmdRead_keeps (answers : AnswersKeep sys fd rel) (rest : List Byte) :
    Keeps rel (cmdRead sys fd rest) := by
  unfold cmdRead
  split
  · exact answers.reply _ _ _
  · exact answers.reply _ _ _

/-- Behind its first line `cmdCurrent` logs numbers alone. -/
theorem changeCurrent_keeps (answers : AnswersKeep sys fd rel)
    (logs : ∀ old new, Keeps rel
      (logabba L_INFO "Changing current from %i to %i" [.int old, .int new]))
    (gives : ∀ number, Keeps rel (give (.current number))) (rest : List Byte) :
    Keeps rel (changeCurrent sys fd rest) := by
  refine Keeps.bind Keeps.get fun net => ?_
  split
  · exact answers.reply _ _ _
  · apply Keeps.bind (logs _ _)
    intro _
    apply Keeps.bind (answers _ _)
    intro _
    apply Keeps.bind (gives _)
    intro _
    exact Keeps.bind Keeps.get fun given => answers.reply _ _ _

theorem cmdCurrent_keeps (kept : HandlerKeeps sys fd rest .cmdCurrent rel) :
    Keeps rel (cmdCurrent sys fd rest) := by
  apply Keeps.bind (kept.logs _ _ _ .decoding)
  intro _
  exact changeCurrent_keeps kept.answers (fun old new => kept.logs _ _ _ (.current old new))
    (fun _ => kept.give _ Command.noConfusion) rest

theorem cmdHours_keeps (kept : HandlerKeeps sys fd rest .cmdHours rel) :
    Keeps rel (cmdHours sys fd rest) := by
  refine Keeps.bind Keeps.get fun net => ?_
  split
  · apply Keeps.ite
    · exact fun _ => kept.answers.reply _ _ _
    · exact fun _ => kept.answers.reply _ _ _
  · apply Keeps.bind (kept.give _ Command.noConfusion)
    intro _
    exact Keeps.bind Keeps.get fun given => kept.answers.reply _ _ _

theorem cmdLoglevel_keeps (kept : HandlerKeeps sys fd rest .cmdLoglevel rel) :
    Keeps rel (cmdLoglevel sys fd rest) := by
  refine Keeps.bind Keeps.get fun net => ?_
  split
  · exact kept.answers.reply _ _ _
  · apply Keeps.bind (kept.logs _ _ _ (.loglevel _ _))
    intro _
    apply Keeps.bind (kept.answers _ _)
    intro _
    apply Keeps.bind (kept.give _ Command.noConfusion)
    intro _
    exact Keeps.bind Keeps.get fun given => kept.answers.reply _ _ _

/-- Every handler but the one that ends a connection keeps what its calls keep. -/
theorem handle_keeps {handler : Handler} (kept : HandlerKeeps sys fd rest handler rel)
    (stays : handler ≠ .cmdQuit) : Keeps rel (handle sys fd rest handler) := by
  cases handler with
  | cmdHelp => exact Keeps.bind (cmdHelp_keeps kept) fun _ => Keeps.pure _
  | cmdQuit => exact absurd rfl stays
  | cmdBat => exact Keeps.bind (cmdBat_keeps kept.answers) fun _ => Keeps.pure _
  | cmdEnd => exact cmdEnd_keeps kept.answers
  | cmdRead => exact cmdRead_keeps kept.answers rest
  | cmdState => exact cmdState_keeps kept
  | cmdCurrent => exact cmdCurrent_keeps kept
  | cmdHours => exact cmdHours_keeps kept
  | cmdLoglevel => exact cmdLoglevel_keeps kept

/-- When closing the connection keeps it too, so does that one. -/
theorem handle_keeps_all {handler : Handler} (kept : HandlerKeeps sys fd rest handler rel)
    (closes : Keeps rel (close fd : Server F Unit)) : Keeps rel (handle sys fd rest handler) := by
  by_cases quits : handler = .cmdQuit
  · rw [quits]
    exact cmdQuit_keeps kept.answers closes
  · exact handle_keeps kept quits

/-- A command that is not understood is answered. -/
theorem dispatch_keeps (answers : AnswersKeep sys fd rel) {cmd : List Byte}
    (unknown : handlerOf cmd = none) (rest : List Byte) :
    Keeps rel (dispatch sys fd cmd rest) := by
  unfold dispatch
  rw [unknown]
  exact Keeps.bind (answers _ _) fun _ => answers.reply _ _ _

theorem complain_keeps (answers : AnswersKeep sys fd rel) {buffer : List Byte}
    (logs : Keeps rel (logabba L_MIN "Could not decode your message: %s" [.str buffer]))
    (n : Int) : Keeps rel (complain sys fd n buffer) := by
  apply Keeps.ite
  · exact fun _ => answers.reply _ _ _
  · intro _
    apply Keeps.ite
    · exact fun _ => Keeps.pure _
    · exact fun _ => Keeps.bind logs fun _ => answers.reply _ _ _

theorem promptAgain_keeps (answers : AnswersKeep sys fd rel) (ret : MySock) :
    Keeps rel (promptAgain sys fd ret) :=
  Keeps.ite (fun _ => answers.reply _ _ _) fun _ => Keeps.pure _

end Handlers

end TsBat3

import TsBat3.Server.Calls

/-! # The daemon behind the server

The server reaches the daemon only through commands of its clients: whatever the system
answers, a run of the server moves the daemon as a run of command events does
(`TsBat3.connections_commands`). What holds of the daemon in every run of rounds and
commands therefore holds of it behind the server.
-/

namespace TsBat3

section Commanded

variable {F : Type} {sys : Answers}

/-- The daemon has been given commands, none of which ends it. -/
def Commanded (net next : Net F) : Prop :=
  ∃ commands : List Command, .exit ∉ commands ∧
    next.daemon = commands.foldl runCommand net.daemon

theorem Commanded.of_same {net next : Net F} (daemon : next.daemon = net.daemon) :
    Commanded net next := ⟨[], List.not_mem_nil, daemon⟩

instance : Std.Refl (Commanded : Net F → Net F → Prop) where
  refl _ := .of_same rfl

instance : IsTrans (Net F) Commanded where
  trans _ _ _ first second := by
    obtain ⟨early, continues, daemon⟩ := first
    obtain ⟨late, continuesNext, daemonNext⟩ := second
    refine ⟨early ++ late, ?_, ?_⟩
    · rw [List.mem_append, not_or]
      exact ⟨continues, continuesNext⟩
    · rw [daemonNext, daemon, List.foldl_append]

/-! ### The sockets -/

theorem callsKeep_commanded (fd : Int) : CallsKeep sys fd (Commanded : Net F → Net F → Prop) where
  toWritesKeep := .of_replied fun net cnt _ _ => .of_same (replied_daemon net fd cnt)
  give command continues _ :=
    ⟨[command], fun member => continues (List.mem_singleton.mp member).symm, rfl⟩
  printBat3 _ :=
    Keeps.ite (fun _ => Keeps.update fun _ => .of_same rfl) fun _ => Keeps.pure _

theorem connected_commanded (fd : Int) :
    Keeps (Commanded : Net F → Net F → Prop) (connected fd) := by
  intro net
  rw [connected_run]
  exact .of_same rfl

theorem close_commanded (fd : Int) : Keeps (Commanded : Net F → Net F → Prop) (close fd) :=
  Keeps.update fun _ => .of_same rfl

theorem closeFd_commanded (fd : Int) :
    Keeps (Commanded : Net F → Net F → Prop) (closeFd fd) := by
  apply Keeps.bind (connected_commanded fd)
  intro value
  apply Keeps.ite
  · exact fun _ => Keeps.bind (close_commanded fd) fun _ => Keeps.update fun _ => .of_same rfl
  · exact fun _ => Keeps.pure _

theorem acceptSocket_commanded :
    Keeps (Commanded : Net F → Net F → Prop) (acceptSocket sys) := by
  intro net
  cases accepted : sys.accept with
  | none =>
      rw [acceptSocket_refused accepted]
      exact Std.Refl.refl net
  | some fd =>
      by_cases greeted : Greeted sys net.transcript.sent.length
      · obtain ⟨transcript, -, accepts⟩ := acceptSocket_greeted accepted greeted
        rw [accepts]
        exact .of_same (replied_daemon (net.entered fd) fd _)
      · obtain ⟨cnt, transcript, accepts⟩ := acceptSocket_lost accepted greeted
        rw [accepts]
        exact .of_same (replied_daemon (net.entered fd) fd cnt)

theorem takeIn_commanded : Keeps (Commanded : Net F → Net F → Prop) (takeIn sys) := by
  have calls (fd : Int) := @callsKeep_commanded F sys fd
  apply Keeps.bind ((calls 0).logabba _ _ _)
  intro _
  apply Keeps.bind acceptSocket_commanded
  intro tempfd
  apply Keeps.bind ((calls 0).logabba _ _ _)
  intro _
  apply Keeps.ite
  · intro _
    apply Keeps.bind ((calls 0).logabba _ _ _)
    intro _
    apply Keeps.bind ((calls tempfd).writeFd _ _)
    exact fun _ => close_commanded tempfd
  · exact fun _ => Keeps.update fun _ => .of_same rfl

theorem closeMySocket_commanded (sockfd : Int) :
    Keeps (Commanded : Net F → Net F → Prop) (closeMySocket sockfd) := by
  have closes (fds : List Nat) : Keeps (Commanded : Net F → Net F → Prop) (closeAll fds) := by
    induction fds with
    | nil => exact Keeps.pure _
    | cons fd fds ih => exact Keeps.bind (closeFd_commanded fd) fun _ => ih
  exact Keeps.bind (closes _) fun _ => close_commanded sockfd

/-! ### The clients -/

theorem dispatch_commanded (fd : Int) (cmd rest : List Byte) :
    Keeps (Commanded : Net F → Net F → Prop) (dispatch sys fd cmd rest) := by
  have calls := @callsKeep_commanded F sys fd
  cases recognised : handlerOf cmd with
  | none => exact dispatch_keeps calls.writeFd recognised rest
  | some handler =>
      intro net
      have noted : Commanded net (net.noted handler) := .of_same rfl
      have handled := handle_keeps_all (calls.handler rest handler) (close_commanded fd)
      rw [dispatch_run recognised]
      exact IsTrans.trans _ _ _ noted (handled (net.noted handler))

theorem readSocket_commanded (fd : Int) :
    Keeps (Commanded : Net F → Net F → Prop) (readSocket sys fd) := by
  have writes := (@callsKeep_commanded F sys fd).toWritesKeep
  unfold readSocket
  split
  · exact Keeps.bind (writes.logabba _ _ _) fun _ => Keeps.pure _
  · apply Keeps.bind (complain_keeps writes.writeFd (writes.logabba _ _ _) _)
    intro _
    apply Keeps.bind (dispatch_commanded fd _ _)
    exact fun ret => promptAgain_keeps writes.writeFd ret

theorem serve_commanded (sockfd : Int) (rfds : Int → Bool) (cnts : List Nat) :
    Keeps (Commanded : Net F → Net F → Prop) (serve sys sockfd rfds cnts) := by
  induction cnts with
  | nil => exact Keeps.pure _
  | cons cnt cnts ih =>
      apply Keeps.bind (connected_commanded cnt)
      intro value
      apply Keeps.ite
      · exact fun _ => ih
      · intro _
        apply Keeps.ite
        · intro _
          apply Keeps.bind ((@callsKeep_commanded F sys 0).logabba _ _ _)
          intro _
          apply Keeps.bind (readSocket_commanded cnt)
          intro ret
          cases ret with
          | QUIT => exact Keeps.bind (closeFd_commanded cnt) fun _ => ih
          | END => exact Keeps.bind (closeMySocket_commanded sockfd) fun _ => Keeps.pure _
          | OKAY => exact ih
          | failed => exact ih
        · exact fun _ => ih

theorem attend_commanded (sockfd : Int) :
    Keeps (Commanded : Net F → Net F → Prop) (attend sys sockfd) := by
  have selects (cnts : List Nat) :
      Keeps (Commanded : Net F → Net F → Prop) (selectable cnts) := by
    intro net
    obtain ⟨clients, collects⟩ := selectable_run cnts net
    rw [collects]
    exact .of_same rfl
  apply Keeps.bind (selects _)
  intro clients
  split
  · exact Keeps.pure _
  · refine Keeps.bind ?_ fun _ => serve_commanded sockfd _ _
    exact Keeps.ite (fun _ => takeIn_commanded) fun _ => Keeps.pure _

private theorem tried_daemon (net : Net F) (sys : Answers) :
    (net.tried sys).daemon = net.daemon := by
  unfold Net.tried
  split
  · rfl
  · rfl

theorem processMySocket_commanded :
    Keeps (Commanded : Net F → Net F → Prop) (processMySocket sys) := by
  intro net
  by_cases opened : (net.tried sys).sockfd = -1
  · obtain ⟨ret, transcript, -, processes⟩ := processMySocket_closed opened
    rw [processes]
    exact .of_same (tried_daemon net sys)
  · obtain ⟨transcript, -, processes⟩ := processMySocket_open opened
    have tried : Commanded net { net.tried sys with transcript } :=
      .of_same (tried_daemon net sys)
    rw [processes]
    exact IsTrans.trans _ _ _ tried (attend_commanded _ _)

/-! ### Runs -/

/-- Only one command ends the daemon. -/
theorem runCommand_continues {start : Daemon F} (runs : start.swContinue = true)
    {command : Command} (continues : command ≠ .exit) :
    (runCommand start command).swContinue = true := by
  cases command with
  | current number => cases number <;> exact runs
  | hours now number => cases number <;> exact runs
  | loglevel number => cases number <;> exact runs
  | exit => exact absurd rfl continues
  | other => exact runs

/-- The command events of a daemon that goes on are its commands. -/
theorem run_commands (ar : Arith F) {start : Daemon F} (runs : start.swContinue = true)
    {commands : List Command} (continues : .exit ∉ commands) :
    (daemon ar).run start (commands.map .command) = commands.foldl runCommand start ∧
      (commands.foldl runCommand start).swContinue = true := by
  induction commands generalizing start with
  | nil => exact ⟨rfl, runs⟩
  | cons command commands ih =>
      rw [List.mem_cons, not_or] at continues
      have step : ((daemon ar).step start (.command command)).1 = runCommand start command :=
        congrArg Prod.fst (if_pos runs)
      have still := runCommand_continues runs (Ne.symm continues.1)
      rw [List.map_cons, Machine.run_cons, step, List.foldl_cons]
      exact ih still continues.2

theorem connections_step_commands (ar : Arith F) (net : Net F) (sys : Answers) :
    ∃ commands : List Command, (connections.step net sys).1.daemon =
      (daemon ar).run net.daemon (commands.map .command) := by
  by_cases runs : net.daemon.swContinue = true
  · obtain ⟨commands, continues, reached⟩ := @processMySocket_commanded F sys net.anew
    obtain ⟨events, still⟩ := run_commands ar runs continues
    have called : (connections.step net sys).1.daemon =
        { commands.foldl runCommand net.daemon with
          swContinue := ((processMySocket sys).run net.anew).1 != .END } := by
      rw [connections_call runs]
      exact congrArg (fun daemon : Daemon F => { daemon with
        swContinue := ((processMySocket sys).run net.anew).1 != MySock.END }) reached
    by_cases ends : ((processMySocket sys).run net.anew).1 = .END
    · refine ⟨commands ++ [.exit], ?_⟩
      have exits : ((daemon ar).step (commands.foldl runCommand net.daemon) (.command .exit)).1 =
          runCommand (commands.foldl runCommand net.daemon) .exit :=
        congrArg Prod.fst (if_pos still)
      rw [called, ends, List.map_append, Machine.run_append, events, List.map_singleton,
        Machine.run_cons, exits]
      rfl
    · refine ⟨commands, ?_⟩
      have goesOn : (((processMySocket sys).run net.anew).1 != .END) =
          (commands.foldl runCommand net.daemon).swContinue :=
        (bne_iff_ne.mpr ends).trans still.symm
      rw [called, events, goesOn]
  · rw [connections_idle runs]
    exact ⟨[], rfl⟩

/-- **What reaches the daemon.** A run of the server moves the daemon as some client
commands do. -/
theorem connections_commands (ar : Arith F) (net : Net F) (calls : List Answers) :
    ∃ commands : List Command, (connections.run net calls).daemon =
      (daemon ar).run net.daemon (commands.map .command) := by
  induction calls generalizing net with
  | nil => exact ⟨[], rfl⟩
  | cons sys calls ih =>
      obtain ⟨first, early⟩ := connections_step_commands ar net sys
      obtain ⟨second, late⟩ := ih (connections.step net sys).1
      refine ⟨first ++ second, ?_⟩
      rw [Machine.run_cons, late, early, List.map_append, Machine.run_append]

end Commanded

end TsBat3

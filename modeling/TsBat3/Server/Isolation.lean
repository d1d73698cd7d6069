import TsBat3.Server.Table

/-! # Clients do not disturb each other

Whatever the other clients send, a client that sends nothing is sent nothing, and its entry and its
descriptor stay as they are, until the daemon is ended (`TsBat3.silent_client`).
-/

namespace TsBat3

section Isolation

variable {F : Type} {sys : Answers} {fd : Nat}

/-- Nothing has been put out to a descriptor, and it is still what it was. -/
structure Bystander (fd : Nat) (net next : Net F) : Prop where
  sent : (∀ message ∈ net.transcript.sent, message.1 ≠ fd) →
    ∀ message ∈ next.transcript.sent, message.1 ≠ fd
  written : (∀ message ∈ net.transcript.written, message.1 ≠ fd) →
    ∀ message ∈ next.transcript.written, message.1 ≠ fd
  table : next.sfdConnect fd = net.sfdConnect fd
  opened : next.opened fd = net.opened fd

instance : Std.Refl (Bystander fd : Net F → Net F → Prop) where
  refl _ := ⟨id, id, rfl, rfl⟩

instance : IsTrans (Net F) (Bystander fd) where
  trans _ _ _ first second :=
    ⟨second.sent ∘ first.sent, second.written ∘ first.written, second.table.trans first.table,
      second.opened.trans first.opened⟩

/-! ### The sockets -/

variable {other : Int}

theorem logabba_bystander (prio : Int) (mess : String) (args : List Arg) :
    Keeps (Bystander fd : Net F → Net F → Prop) (logabba prio mess args) := by
  apply Keeps.update
  intro net
  split
  · exact ⟨id, id, rfl, rfl⟩
  · exact Std.Refl.refl net

theorem connected_bystander (index : Int) :
    Keeps (Bystander fd : Net F → Net F → Prop) (connected index) :=
  fun _ => ⟨id, id, rfl, rfl⟩

theorem connect_bystander (apart : other ≠ fd) (value : Int) :
    Keeps (Bystander fd : Net F → Net F → Prop) (connect other value) :=
  Keeps.update fun _ => ⟨id, id, Function.update_of_ne (Ne.symm apart) _ _, rfl⟩

theorem close_bystander (apart : other ≠ fd) :
    Keeps (Bystander fd : Net F → Net F → Prop) (close other) :=
  Keeps.update fun _ => ⟨id, id, rfl, Function.update_of_ne (Ne.symm apart) _ _⟩

theorem closeFd_bystander (apart : other ≠ fd) :
    Keeps (Bystander fd : Net F → Net F → Prop) (closeFd other) := by
  apply Keeps.bind (connected_bystander other)
  intro value
  apply Keeps.ite
  · exact fun _ => Keeps.bind (close_bystander apart) fun _ => connect_bystander apart 0
  · exact fun _ => Keeps.pure _

theorem send_bystander (apart : other ≠ fd) (msg : List Byte) :
    Keeps (Bystander fd : Net F → Net F → Prop) (send sys other msg) := by
  intro net
  refine ⟨fun unsent message member => ?_, id, rfl, rfl⟩
  rcases List.mem_append.mp member with early | late
  · exact unsent message early
  · rw [List.mem_singleton.mp late]
    exact apart

theorem writeFd_bystander (apart : other ≠ fd) (msg : String) (args : List Arg) :
    Keeps (Bystander fd : Net F → Net F → Prop) (writeFd sys other msg args) := by
  apply Keeps.ite
  · exact fun _ => Keeps.pure _
  intro _
  apply Keeps.bind (send_bystander apart _)
  intro cnt
  apply Keeps.bind
  · apply Keeps.ite
    · intro _
      apply Keeps.bind (logabba_bystander _ _ _)
      exact fun _ => Keeps.bind (closeFd_bystander apart) fun _ => Keeps.pure _
    · intro _
      apply Keeps.ite
      · exact fun _ => Keeps.bind (logabba_bystander _ _ _) fun _ => Keeps.pure _
      · exact fun _ => Keeps.pure _
  intro cnt
  refine Keeps.bind ?_ fun _ => Keeps.pure _
  apply Keeps.ite
  · exact fun _ => Keeps.bind (send_bystander apart _) fun _ => Keeps.pure _
  · exact fun _ => Keeps.pure _

theorem callsKeep_bystander (apart : other ≠ fd) :
    CallsKeep sys other (Bystander fd : Net F → Net F → Prop) where
  logabba := logabba_bystander
  writeFd := writeFd_bystander apart
  give _ _ := Keeps.update fun _ => ⟨id, id, rfl, rfl⟩
  printBat3 _ := by
    apply Keeps.ite
    · intro _
      apply Keeps.update
      intro net
      refine ⟨id, fun unwritten message member => ?_, rfl, rfl⟩
      rcases List.mem_append.mp member with early | late
      · exact unwritten message early
      · obtain ⟨line, -, rfl⟩ := List.mem_map.mp late
        exact apart
    · exact fun _ => Keeps.pure _

/-! ### The other clients -/

theorem dispatch_bystander (apart : other ≠ fd) (cmd rest : List Byte) :
    Keeps (Bystander fd : Net F → Net F → Prop) (dispatch sys other cmd rest) := by
  have calls := @callsKeep_bystander F sys fd other apart
  cases recognised : handlerOf cmd with
  | none => exact dispatch_keeps calls.writeFd recognised rest
  | some handler =>
      intro net
      have noted : Bystander fd net (net.noted handler) := ⟨id, id, rfl, rfl⟩
      have handled := handle_keeps_all (calls.handler rest handler) (close_bystander apart)
      rw [dispatch_run recognised]
      exact IsTrans.trans _ _ _ noted (handled (net.noted handler))

theorem readSocket_bystander (apart : other ≠ fd) :
    Keeps (Bystander fd : Net F → Net F → Prop) (readSocket sys other) := by
  have writes := (@callsKeep_bystander F sys fd other apart).toWritesKeep
  unfold readSocket
  split
  · exact Keeps.bind (writes.logabba _ _ _) fun _ => Keeps.pure _
  · apply Keeps.bind (complain_keeps writes.writeFd (writes.logabba _ _ _) _)
    intro _
    apply Keeps.bind (dispatch_bystander apart _ _)
    exact fun ret => promptAgain_keeps writes.writeFd ret

theorem serve_bystander (sockfd : Int) {rfds : Int → Bool} (silent : rfds fd = false)
    (cnts : List Nat) :
    KeepsIf (· ≠ .END) (Bystander fd : Net F → Net F → Prop) (serve sys sockfd rfds cnts) := by
  induction cnts with
  | nil => exact .of_keeps (Keeps.pure _)
  | cons cnt cnts ih =>
      apply KeepsIf.bind (connected_bystander cnt)
      intro value
      apply KeepsIf.ite
      · exact fun _ => ih
      intro _
      apply KeepsIf.ite
      swap
      · exact fun _ => ih
      intro ready
      have apart : (cnt : Int) ≠ fd := by
        intro same
        rw [same, silent] at ready
        exact Bool.false_ne_true ready
      apply KeepsIf.bind (logabba_bystander _ _ _)
      intro _
      apply KeepsIf.bind (readSocket_bystander apart)
      intro ret
      cases ret with
      | QUIT => exact KeepsIf.bind (closeFd_bystander apart) fun _ => ih
      | END => exact KeepsIf.bind_pure (not_not.mpr rfl)
      | OKAY => exact ih
      | failed => exact ih

/-! ### A client that knocks -/

private theorem enter_bystander (apart : other ≠ fd) :
    Keeps (Bystander fd : Net F → Net F → Prop)
      (modify fun net => { net with opened := Function.update net.opened other true }) :=
  Keeps.update fun _ => ⟨id, id, rfl, Function.update_of_ne (Ne.symm apart) _ _⟩

private theorem welcome_value (newsockfd : Int) (net : Net F) :
    ((welcome sys newsockfd).run net).1 = newsockfd ∨
      ((welcome sys newsockfd).run net).1 = -1 := by
  unfold welcome
  split
  · exact Or.inl rfl
  rw [run_bind_state, run_bind_state]
  split
  · exact Or.inl rfl
  · exact Or.inr rfl

private theorem promptFirst_value (newsockfd : Int) (net : Net F) :
    ((promptFirst sys newsockfd).run net).1 = newsockfd ∨
      ((promptFirst sys newsockfd).run net).1 = -1 := by
  unfold promptFirst
  split
  · rw [run_bind_state]
    split
    · exact Or.inr rfl
    · exact Or.inl rfl
  · exact Or.inl rfl

theorem welcome_bystander (apart : other ≠ fd) :
    Keeps (Bystander fd : Net F → Net F → Prop) (welcome sys other) := by
  apply Keeps.ite
  · exact fun _ => Keeps.pure _
  intro _
  apply Keeps.bind (logabba_bystander _ _ _)
  intro _
  apply Keeps.bind (writeFd_bystander apart _ _)
  intro cnt
  apply Keeps.ite
  · exact fun _ => Keeps.bind (logabba_bystander _ _ _) fun _ => Keeps.pure _
  · intro _
    apply Keeps.bind (logabba_bystander _ _ _)
    exact fun _ => Keeps.bind (close_bystander apart) fun _ => Keeps.pure _

theorem promptFirst_bystander (apart : other ≠ fd) :
    Keeps (Bystander fd : Net F → Net F → Prop) (promptFirst sys other) := by
  apply Keeps.ite
  · intro _
    apply Keeps.bind (writeFd_bystander apart _ _)
    intro cnt
    apply Keeps.ite
    · exact fun _ => Keeps.bind (close_bystander apart) fun _ => Keeps.pure _
    · exact fun _ => Keeps.pure _
  · exact fun _ => Keeps.pure _

/-- The value of a step that passes a descriptor on or gives it up is not that of a bystander. -/
theorem value_apart {value : Int} (apart : other ≠ fd) (passed : value = other ∨ value = -1) :
    value ≠ fd := by
  rcases passed with same | lost
  · rw [same]
    exact apart
  · omega

theorem takeIn_bystander (apart : sys.accept ≠ some fd) :
    Keeps (Bystander fd : Net F → Net F → Prop) (takeIn sys) := by
  have accepts : Keeps (Bystander fd : Net F → Net F → Prop) (acceptConnection sys) := by
    unfold acceptConnection
    cases accepted : sys.accept with
    | none => exact Keeps.pure _
    | some newfd =>
        have newer : (newfd : Int) ≠ fd := fun same =>
          apart (accepted.trans (congrArg some (Int.ofNat_inj.mp same)))
        exact Keeps.bind (enter_bystander newer) fun _ => Keeps.pure _
  have acceptsValue (net : Net F) : ((acceptConnection sys).run net).1 ≠ fd := by
    unfold acceptConnection
    cases accepted : sys.accept with
    | none =>
        have invalid : (-1 : Int) ≠ fd := by omega
        exact invalid
    | some newfd => exact fun same => apart (accepted.trans (congrArg some (Int.ofNat_inj.mp same)))
  have accepted : Keeps (Bystander fd : Net F → Net F → Prop) (acceptSocket sys) := by
    apply Keeps.bind_value (· ≠ (fd : Int)) accepts acceptsValue
    intro newfd newer
    apply Keeps.bind_value (· ≠ (fd : Int)) (welcome_bystander newer) fun net =>
      value_apart newer (welcome_value newfd net)
    exact fun welcomed stays => promptFirst_bystander stays
  have acceptedValue (net : Net F) : ((acceptSocket sys).run net).1 ≠ fd := by
    unfold acceptSocket
    rw [run_bind_state, run_bind_state]
    exact value_apart (value_apart (acceptsValue net) (welcome_value _ _)) (promptFirst_value _ _)
  apply Keeps.bind (logabba_bystander _ _ _)
  intro _
  apply Keeps.bind_value (· ≠ (fd : Int)) accepted acceptedValue
  intro tempfd newer
  apply Keeps.bind (logabba_bystander _ _ _)
  intro _
  apply Keeps.ite
  · intro _
    apply Keeps.bind (logabba_bystander _ _ _)
    intro _
    apply Keeps.bind (writeFd_bystander newer _ _)
    exact fun _ => close_bystander newer
  · exact fun _ => connect_bystander newer 1

/-! ### Calls -/

/-- A client sends nothing, and its descriptor is not given to anybody else. -/
structure Silent (fd : Nat) (sys : Answers) : Prop where
  select : ∀ ready, sys.select = some ready → ready fd = false
  accept : sys.accept ≠ some fd
  socket : sys.socket ≠ some fd

theorem attend_bystander (silent : Silent fd sys) (sockfd : Int) :
    KeepsIf (· ≠ .END) (Bystander fd : Net F → Net F → Prop) (attend sys sockfd) := by
  have selects (cnts : List Nat) :
      Keeps (Bystander fd : Net F → Net F → Prop) (selectable cnts) := by
    intro net
    obtain ⟨clients, collects⟩ := selectable_run cnts net
    rw [collects]
    exact ⟨id, id, rfl, rfl⟩
  apply KeepsIf.bind (selects _)
  intro clients
  split
  · exact .of_keeps (Keeps.pure _)
  · rename_i ready selected
    have quiet := silent.select ready selected
    refine KeepsIf.bind ?_ fun _ => serve_bystander sockfd ?_ _
    · exact Keeps.ite (fun _ => takeIn_bystander silent.accept) fun _ => Keeps.pure _
    · rw [quiet, Bool.false_and]

theorem openMySocket_bystander (silent : Silent fd sys) (portno : Int) :
    Keeps (Bystander fd : Net F → Net F → Prop) (openMySocket sys portno) := by
  have opens : Keeps (Bystander fd : Net F → Net F → Prop) (openSocket sys) := by
    unfold openSocket
    cases socket : sys.socket with
    | none => exact Keeps.pure _
    | some newfd =>
        have newer : (newfd : Int) ≠ fd := fun same =>
          silent.socket (socket.trans (congrArg some (Int.ofNat_inj.mp same)))
        exact Keeps.bind (enter_bystander newer) fun _ => Keeps.pure _
  apply Keeps.bind opens
  intro sockfd
  apply Keeps.ite
  · exact fun _ => Keeps.bind (logabba_bystander _ _ _) fun _ => Keeps.pure _
  · intro _
    apply Keeps.ite
    · exact fun _ => Keeps.bind (logabba_bystander _ _ _) fun _ => Keeps.pure _
    · exact fun _ => Keeps.pure _

theorem processMySocket_bystander (silent : Silent fd sys) :
    KeepsIf (· ≠ .END) (Bystander fd : Net F → Net F → Prop) (processMySocket sys) := by
  refine KeepsIf.bind Keeps.get fun net => ?_
  apply KeepsIf.ite
  swap
  · exact fun _ => attend_bystander silent _
  intro _
  apply KeepsIf.ite
  · exact fun _ => .of_keeps (Keeps.pure _)
  intro _
  refine KeepsIf.bind (Keeps.update fun _ => ⟨id, id, rfl, rfl⟩) fun _ => ?_
  apply KeepsIf.bind (openMySocket_bystander silent _)
  intro sockfd
  refine KeepsIf.bind (Keeps.update fun _ => ⟨id, id, rfl, rfl⟩) fun _ => ?_
  apply KeepsIf.ite
  · exact fun _ => .of_keeps (Keeps.bind (logabba_bystander _ _ _) fun _ => Keeps.pure _)
  · exact fun _ => attend_bystander silent _

/-! ### Runs -/

/-- A call that does not end the daemon keeps a bystander as it is, and puts nothing out to it. -/
structure Untouched (fd : Nat) (taken : Machine.Step (Net F) Answers (Option MySock)) : Prop where
  sent : ∀ message ∈ taken.after.transcript.sent, message.1 ≠ fd
  written : ∀ message ∈ taken.after.transcript.written, message.1 ≠ fd
  table : taken.after.sfdConnect fd = taken.before.sfdConnect fd
  opened : taken.after.opened fd = taken.before.opened fd

theorem connections_untouched (silent : Silent fd sys) {net : Net F}
    (continues : (connections.step net sys).1.daemon.swContinue = true) :
    Untouched fd (connections.stepAt net sys) := by
  have returned := returned_of_continues continues
  obtain ⟨runs, returns⟩ := returns_call returned
  have kept := processMySocket_bystander silent net.anew returns
  have called : (connections.stepAt net sys).after =
      { ((processMySocket sys).run net.anew).2 with
        daemon.swContinue := ((processMySocket sys).run net.anew).1 != .END } :=
    congrArg Prod.fst (connections_call runs)
  constructor
  · rw [called]
    exact kept.sent fun message member => absurd member List.not_mem_nil
  · rw [called]
    exact kept.written fun message member => absurd member List.not_mem_nil
  · rw [called]
    exact kept.table
  · rw [called]
    exact kept.opened

/-- A daemon that has been ended stays so. -/
theorem continues_back (net : Net F) (sys : Answers)
    (continues : (connections.step net sys).1.daemon.swContinue = true) :
    net.daemon.swContinue = true :=
  (returns_call (returned_of_continues continues)).1

/-- **Clients do not disturb each other**: whatever the others send and however the sockets behave,
a client that sends nothing is sent nothing, and its entry in the table and its descriptor stay as
they are, as long as no one ends the daemon. -/
theorem silent_client (fd : Nat) (net : Net F) (calls : List Answers)
    (silent : ∀ sys ∈ calls, Silent fd sys)
    (continues : (connections.run net calls).daemon.swContinue = true) :
    (connections.run net calls).sfdConnect fd = net.sfdConnect fd ∧
      (connections.run net calls).opened fd = net.opened fd ∧
      ∀ taken ∈ connections.trace net calls,
        ∀ message ∈ taken.after.transcript.sent ++ taken.after.transcript.written,
          message.1 ≠ fd := by
  have runs := (connections.after_of_run (fun net => net.daemon.swContinue = true)
    continues_back continues).2
  have untouched : ∀ taken ∈ connections.trace net calls, Untouched fd taken := by
    intro taken member
    have quiet := silent taken.event (connections.event_mem member)
    obtain ⟨before, sys, after, -, rfl⟩ := (connections.mem_trace net calls taken).mp member
    exact connections_untouched quiet (runs _ member)
  refine ⟨?_, ?_, fun taken member message out => ?_⟩
  · exact connections.run_constant (fun net => net.sfdConnect fd) net calls
      fun taken member => (untouched taken member).table
  · exact connections.run_constant (fun net => net.opened fd) net calls
      fun taken member => (untouched taken member).opened
  · rcases List.mem_append.mp out with sent | written
    · exact (untouched taken member).sent message sent
    · exact (untouched taken member).written message written

end Isolation

/-- A server with clients on the descriptors 4 and 5. -/
def crowdedNet : Net ℚ :=
  connections.run (startNet (startDaemon (0 : ℚ) [] .blank))
    [firstCall, knockingCall, { knockingCall with accept := some 5 }]

/-- The client on 4 asks for help. -/
def helpCall : Answers :=
  { firstCall with
    select := some fun fd => fd == 4
    read := fun _ => some (text "help\n") }

/-- The client on 5 does not see what the one on 4 is answered. -/
theorem silent_client_help :
    (connections.run crowdedNet [helpCall]).transcript.handled = [.cmdHelp] ∧
      (connections.run crowdedNet [helpCall]).sfdConnect (5 : Nat) =
        crowdedNet.sfdConnect (5 : Nat) ∧
      (connections.run crowdedNet [helpCall]).opened (5 : Nat) = crowdedNet.opened (5 : Nat) ∧
      ∀ taken ∈ connections.trace crowdedNet [helpCall],
        ∀ message ∈ taken.after.transcript.sent ++ taken.after.transcript.written,
          message.1 ≠ (5 : Nat) := by
  refine ⟨by decide +kernel, silent_client 5 crowdedNet [helpCall] ?_ (by decide +kernel)⟩
  intro sys member
  rw [List.mem_singleton.mp member]
  exact ⟨fun ready selected => Option.some.inj selected ▸ rfl, by decide, by decide⟩

end TsBat3

import TsBat3.Server.Connections
import TsBat3.Server.Handlers

/-! # What a reply does

A reply to a client changes the table only when it cannot be sent: then the client's entry
and its descriptor go, if the table has it. `TsBat3.writeFd_run` says exactly what a
call of `writeFd` does. Serving a line of a client does nothing else to the table
(`TsBat3.Replies`), but that `cmdQuit` closes the descriptor before the entry goes
(`TsBat3.readSocket_served`).
-/

namespace TsBat3

section Replies

variable {F : Type} {sys : Answers}

/-- The server after a call of `closeFd`. -/
def Net.dropped (net : Net F) (fd : Int) : Net F :=
  if 0 < net.sfdConnect fd then
    { net with
      touched := net.touched ++ [fd] ++ [fd]
      sfdConnect := Function.update net.sfdConnect fd 0
      opened := Function.update net.opened fd false }
  else { net with touched := net.touched ++ [fd] }

theorem closeFd_run (fd : Int) (net : Net F) : (closeFd fd).run net = ((), net.dropped fd) := by
  unfold closeFd Net.dropped
  by_cases member : 0 < net.sfdConnect fd
  · have taken : (connected fd).run net =
        (net.sfdConnect fd, { net with touched := net.touched ++ [fd] }) := rfl
    rw [run_bind_state, taken, if_pos member, if_pos member]
    rfl
  · have taken : (connected fd).run net =
        (net.sfdConnect fd, { net with touched := net.touched ++ [fd] }) := rfl
    rw [run_bind_state, taken, if_neg member, if_neg member]
    rfl

/-- The server after a reply for which `send` returns `cnt`. -/
def Net.replied (net : Net F) (fd cnt : Int) : Net F := if cnt < 0 then net.dropped fd else net

/-- What a reply does depends on the table alone. -/
theorem replied_transcript (net : Net F) (fd cnt : Int) (transcript : Transcript) :
    Net.replied { net with transcript } fd cnt = { net.replied fd cnt with transcript } := by
  unfold Net.replied Net.dropped
  dsimp only
  split_ifs
  · rfl
  · rfl
  · rfl

theorem replied_daemon (net : Net F) (fd cnt : Int) : (net.replied fd cnt).daemon = net.daemon := by
  unfold Net.replied Net.dropped
  split_ifs
  · rfl
  · rfl
  · rfl

/-- Logging changes nothing but the log. -/
theorem logabba_run (prio : Int) (mess : String) (args : List Arg) (net : Net F) :
    ∃ transcript, transcript.sent = net.transcript.sent ∧
      transcript.handled = net.transcript.handled ∧
      (logabba prio mess args).run net = ((), { net with transcript }) := by
  by_cases loud : prio ≤ net.daemon.loglevel
  · refine ⟨{ net.transcript with
        logged := net.transcript.logged ++ [vsprintf (text mess) args] }, rfl, rfl, ?_⟩
    exact congrArg (Prod.mk ()) (if_pos loud)
  · exact ⟨net.transcript, rfl, rfl, congrArg (Prod.mk ()) (if_neg loud)⟩

private theorem checkSent_run (fd : Int) (mymsg : List Byte) (cnt : Int) (net : Net F) :
    ∃ transcript, transcript.sent = net.transcript.sent ∧
      transcript.handled = net.transcript.handled ∧
      (checkSent sys fd mymsg cnt).run net =
        (max cnt (-1), { net.replied fd cnt with transcript }) := by
  unfold checkSent Net.replied
  by_cases failed : cnt < 0
  · obtain ⟨transcript, sent, handled, logs⟩ :=
      logabba_run L_MIN "ERROR sending to socket: %s" [.str sys.strerror] net
    have drops := replied_transcript net fd cnt transcript
    have value : max cnt (-1) = -1 := max_eq_right (by omega)
    refine ⟨transcript, sent, handled, ?_⟩
    rw [Net.replied, Net.replied, if_pos failed, if_pos failed] at drops
    rw [if_pos failed, if_pos failed, run_bind_state, logs, run_bind_state, closeFd_run, drops,
      value]
    rfl
  have value : max cnt (-1) = cnt := max_eq_left (by omega)
  rw [if_neg failed, value]
  by_cases short : cnt ≠ mymsg.length
  · obtain ⟨transcript, sent, handled, logs⟩ :=
      logabba_run L_MIN "Wrote a wrong number of bytes: %d != %d"
        [.int cnt, .int mymsg.length] net
    refine ⟨transcript, sent, handled, ?_⟩
    rw [if_neg failed, if_pos short, run_bind_state, logs]
    rfl
  · refine ⟨net.transcript, rfl, rfl, ?_⟩
    rw [if_neg failed, if_neg short]
    rfl

private theorem endLine_run (fd : Int) (msg : String) (net : Net F) :
    ∃ transcript,
      transcript.sent.length = net.transcript.sent.length + (if msg = PROMPT then 0 else 1) ∧
      transcript.handled = net.transcript.handled ∧
      (endLine sys fd msg).run net = ((), { net with transcript }) := by
  unfold endLine
  by_cases prompt : msg = PROMPT
  · rw [if_neg (not_not.mpr prompt), if_pos prompt]
    exact ⟨net.transcript, rfl, rfl, rfl⟩
  · rw [if_pos prompt, if_neg prompt]
    refine ⟨{ net.transcript with sent := net.transcript.sent ++ [(fd, text "\n")] }, ?_, rfl, rfl⟩
    exact List.length_append

/-- **What `writeFd` does** is up to its call of `send`: when that fails the client is
dropped. -/
theorem writeFd_run {fd : Int} (valid : fd ≠ -1) (msg : String) (args : List Arg) (net : Net F) :
    let cnt := sys.send net.transcript.sent.length
    ∃ transcript,
      transcript.sent.length = net.transcript.sent.length + (if msg = PROMPT then 1 else 2) ∧
      transcript.handled = net.transcript.handled ∧
      (writeFd sys fd msg args).run net =
        (max cnt (-1), { net.replied fd cnt with transcript }) := by
  intro cnt
  obtain ⟨checked, sent, handled, checks⟩ := @checkSent_run F sys fd (vsprintf (text msg) args) cnt
    { net with
      transcript.sent := net.transcript.sent ++ [(fd, vsprintf (text msg) args)] }
  obtain ⟨transcript, count, same, ends⟩ :=
    @endLine_run F sys fd msg { net.replied fd cnt with transcript := checked }
  have first : (send sys fd (vsprintf (text msg) args)).run net = (cnt,
      { net with
        transcript.sent := net.transcript.sent ++ [(fd, vsprintf (text msg) args)] }) := rfl
  refine ⟨transcript, ?_, same.trans handled, ?_⟩
  · rw [count, sent, List.length_append, List.length_singleton]
    split
    · rfl
    · rfl
  · unfold writeFd
    rw [if_neg valid, run_bind_state, first, run_bind_state, checks, replied_transcript,
      run_bind_state, ends]
    rfl

/-- To know what logging and answering do, it is enough to know what a reply does. -/
theorem WritesKeep.of_replied {fd : Int} {rel : Net F → Net F → Prop} [Std.Refl rel]
    (replied : ∀ (net : Net F) (cnt : Int) (transcript : Transcript),
      transcript.handled = net.transcript.handled →
        rel net { net.replied fd cnt with transcript }) : WritesKeep sys fd rel where
  logabba prio mess args net := by
    obtain ⟨transcript, -, handled, logs⟩ := logabba_run prio mess args net
    have kept : net.replied fd 0 = net := if_neg (lt_irrefl 0)
    have logged := replied net 0 transcript handled
    rw [kept] at logged
    rw [logs]
    exact logged
  writeFd msg args net := by
    by_cases valid : fd = -1
    · unfold TsBat3.writeFd
      rw [if_pos valid]
      exact Std.Refl.refl net
    · obtain ⟨transcript, -, handled, writes⟩ := @writeFd_run F sys fd valid msg args net
      rw [writes]
      exact replied net _ transcript handled

/-- The table is accessed at one index only. -/
def Touches (fd : Int) (net next : Net F) : Prop :=
  ∃ more, next.touched = net.touched ++ more ∧ ∀ index ∈ more, index = fd

theorem Touches.of_same {fd : Int} {net next : Net F} (touched : next.touched = net.touched) :
    Touches fd net next :=
  ⟨[], by rw [touched, List.append_nil], fun _ inside => absurd inside List.not_mem_nil⟩

theorem Touches.trans {fd : Int} {net mid next : Net F} (first : Touches fd net mid)
    (second : Touches fd mid next) : Touches fd net next := by
  obtain ⟨more, touched, atFd⟩ := first
  obtain ⟨others, touchedNext, othersAtFd⟩ := second
  refine ⟨more ++ others, by rw [touchedNext, touched, List.append_assoc], ?_⟩
  intro index inside
  rcases List.mem_append.mp inside with early | late
  · exact atFd index early
  · exact othersAtFd index late

/-- What answering a client may do to the server: nothing, or to drop that client. -/
structure Replies (fd : Int) (net next : Net F) : Prop where
  sockfd : next.sockfd = net.sockfd
  table : next.sfdConnect = net.sfdConnect ∧ next.opened = net.opened ∨
    0 < net.sfdConnect fd ∧ next.sfdConnect = Function.update net.sfdConnect fd 0 ∧
      next.opened = Function.update net.opened fd false
  touched : Touches fd net next

theorem Replies.of_same {fd : Int} {net next : Net F} (sockfd : next.sockfd = net.sockfd)
    (table : next.sfdConnect = net.sfdConnect) (opened : next.opened = net.opened)
    (touched : next.touched = net.touched) : Replies fd net next :=
  ⟨sockfd, .inl ⟨table, opened⟩, .of_same touched⟩

instance (fd : Int) : Std.Refl (Replies fd : Net F → Net F → Prop) where
  refl _ := .of_same rfl rfl rfl rfl

instance (fd : Int) : IsTrans (Net F) (Replies fd) where
  trans net mid next first second := by
    refine ⟨second.sockfd.trans first.sockfd, ?_, first.touched.trans second.touched⟩
    rcases first.table with ⟨table, opened⟩ | ⟨member, table, opened⟩
    · rw [← table, ← opened]
      exact second.table
    · rcases second.table with ⟨tableNext, openedNext⟩ | ⟨again, -, -⟩
      · exact .inr ⟨member, tableNext.trans table, openedNext.trans opened⟩
      · -- a client that has been dropped is not dropped again
        rw [table, Function.update_self] at again
        exact absurd again (lt_irrefl 0)

theorem Replies.dropped (fd : Int) (net : Net F) : Replies fd net (net.dropped fd) := by
  unfold Net.dropped
  by_cases member : 0 < net.sfdConnect fd
  · rw [if_pos member]
    refine ⟨rfl, .inr ⟨member, rfl, rfl⟩, [fd] ++ [fd], List.append_assoc _ _ _, ?_⟩
    intro index inside
    rcases List.mem_append.mp inside with early | late
    · exact List.mem_singleton.mp early
    · exact List.mem_singleton.mp late
  · rw [if_neg member]
    exact ⟨rfl, .inl ⟨rfl, rfl⟩, [fd], rfl, fun _ inside => List.mem_singleton.mp inside⟩

theorem Replies.replied (fd cnt : Int) (net : Net F) : Replies fd net (net.replied fd cnt) := by
  unfold Net.replied
  split
  · exact .dropped fd net
  · exact Std.Refl.refl net

theorem closeFd_keeps (fd : Int) : Keeps (Replies fd : Net F → Net F → Prop) (closeFd fd) := by
  intro net
  rw [closeFd_run]
  exact .dropped fd net

theorem writesKeep_replies (fd : Int) : WritesKeep sys fd (Replies fd : Net F → Net F → Prop) :=
  .of_replied fun net cnt _ _ =>
    have replies := Replies.replied fd cnt net
    ⟨replies.sockfd, replies.table, replies.touched⟩

theorem callsKeep_replies (fd : Int) : CallsKeep sys fd (Replies fd : Net F → Net F → Prop) where
  toWritesKeep := writesKeep_replies fd
  give _ _ := Keeps.update fun _ => .of_same rfl rfl rfl rfl
  printBat3 _ :=
    Keeps.ite (fun _ => Keeps.update fun _ => .of_same rfl rfl rfl rfl) fun _ => Keeps.pure _

/-! ### A line of a client -/

/-- The server after `close`. -/
def Net.closed (net : Net F) (fd : Int) : Net F :=
  { net with opened := Function.update net.opened fd false }

theorem close_run (fd : Int) (net : Net F) : (close fd).run net = ((), net.closed fd) := rfl

/-- What serving a line leaves behind: replies, after which the descriptor may have been
closed for a client that quits. -/
def Served (fd : Int) (net : Net F) (served : MySock × Net F) : Prop :=
  ∃ mid, Replies fd net mid ∧ (served.2 = mid ∨ served.1 = .QUIT ∧ served.2 = mid.closed fd)

theorem Served.of_keeps {fd : Int} {prog : Server F MySock} (kept : Keeps (Replies fd) prog)
    (net : Net F) : Served fd net (prog.run net) := ⟨_, kept net, .inl rfl⟩

/-- What comes before does not matter. -/
theorem Served.after {fd : Int} {net mid : Net F} {served : MySock × Net F}
    (first : Replies fd net mid) (second : Served fd mid served) : Served fd net served := by
  obtain ⟨reached, replies, ends⟩ := second
  exact ⟨reached, IsTrans.trans _ _ _ first replies, ends⟩

private theorem handle_served (fd : Int) (rest : List Byte) (handler : Handler) (net : Net F) :
    Served fd net ((handle sys fd rest handler).run net) := by
  by_cases quits : handler = .cmdQuit
  · rw [quits]
    exact ⟨_, (writesKeep_replies fd).writeFd "Have a nice day." [] net, .inr ⟨rfl, rfl⟩⟩
  · exact .of_keeps (handle_keeps ((callsKeep_replies fd).handler rest handler) quits) net

private theorem dispatch_served (fd : Int) (cmd rest : List Byte) (net : Net F) :
    Served fd net ((dispatch sys fd cmd rest).run net) := by
  cases recognised : handlerOf cmd with
  | none => exact .of_keeps (dispatch_keeps (writesKeep_replies fd).writeFd recognised rest) net
  | some handler =>
      have noted : Replies fd net (net.noted handler) := .of_same rfl rfl rfl rfl
      rw [dispatch_run recognised]
      exact .after noted (handle_served fd rest handler (net.noted handler))

/-- The prompt keeps what has been returned, and a client that has quit gets none. -/
theorem promptAgain_served (fd : Int) {net : Net F} {served : MySock × Net F}
    (reached : Served fd net served) :
    Served fd net ((promptAgain sys fd served.1).run served.2) := by
  obtain ⟨mid, replies, same | ⟨quits, closed⟩⟩ := reached
  · rw [same]
    exact .after replies (.of_keeps (promptAgain_keeps (writesKeep_replies fd).writeFd _) mid)
  · unfold promptAgain
    rw [if_neg fun stays => stays.2 quits]
    exact ⟨mid, replies, .inr ⟨quits, closed⟩⟩

/-- **Serving a line** changes the table as replies do. -/
theorem readSocket_served (fd : Int) (net : Net F) :
    Served fd net ((readSocket sys fd).run net) := by
  have writes := @writesKeep_replies F sys fd
  unfold readSocket
  split
  · exact .of_keeps (Keeps.bind (writes.logabba _ _ _) fun _ => Keeps.pure _) net
  · apply Served.after (complain_keeps writes.writeFd (writes.logabba _ _ _) _ net)
    exact promptAgain_served fd (dispatch_served fd _ _ _)

/-- A client that has quit is dropped like one that cannot be reached, although its
descriptor is closed once more. -/
theorem Served.closeFd {fd : Int} {net : Net F} {served : MySock × Net F}
    (reached : Served fd net served) (member : 0 < net.sfdConnect fd) :
    Replies fd net ((closeFd fd).run served.2).2 := by
  obtain ⟨mid, replies, same | ⟨-, closed⟩⟩ := reached
  · rw [same]
    exact IsTrans.trans _ _ _ replies (closeFd_keeps fd mid)
  rw [closed, closeFd_run]
  have drops := Replies.dropped fd (mid.closed fd)
  refine ⟨drops.sockfd.trans replies.sockfd, .inr ⟨member, ?_⟩,
    replies.touched.trans (.trans (.of_same rfl) drops.touched)⟩
  unfold Net.dropped Net.closed
  rcases replies.table with ⟨table, opened⟩ | ⟨-, table, opened⟩
  · rw [← table] at member
    rw [if_pos member, table, opened]
    exact ⟨rfl, Function.update_idem _ _ _⟩
  · have gone : ¬ 0 < mid.sfdConnect fd := by
      rw [table, Function.update_self]
      exact lt_irrefl 0
    rw [if_neg gone, opened]
    exact ⟨table, Function.update_idem _ _ _⟩

end Replies

end TsBat3

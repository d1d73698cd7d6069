import Mathlib.Logic.Relation
import TsBat3.Server.Replies

/-! # What a call does to the table

A call of `processMySocket` tries the port when it is not open (`TsBat3.Net.tried`), takes a
client in when one knocks (`TsBat3.takeIn_greeted`, `TsBat3.takeIn_lost`) and then serves the
clients of the table, each of which may only be dropped (`TsBat3.Serves`).
-/

namespace TsBat3

section Calls

variable {F : Type} {sys : Answers}

/-! ### The clients of the table -/

/-- What serving clients of the table does: any of them may be answered, in any order. -/
def Serves : Net F → Net F → Prop :=
  Relation.ReflTransGen fun net next => ∃ cnt : Nat, cnt < MAXSFD ∧ Replies cnt net next

theorem Serves.single {cnt : Nat} (bound : cnt < MAXSFD) {net next : Net F}
    (replies : Replies cnt net next) : Serves net next :=
  Relation.ReflTransGen.single ⟨cnt, bound, replies⟩

theorem connected_run (fd : Int) (net : Net F) :
    (connected fd).run net = (net.sfdConnect fd, { net with touched := net.touched ++ [fd] }) :=
  rfl

theorem Replies.connected (fd : Int) (net : Net F) :
    Replies fd net { net with touched := net.touched ++ [fd] } :=
  ⟨rfl, .inl ⟨rfl, rfl⟩, [fd], rfl, fun _ inside => List.mem_singleton.mp inside⟩

theorem selectable_run (cnts : List Nat) (net : Net F) :
    ∃ clients, (selectable cnts).run net =
      (clients, { net with touched := net.touched ++ cnts.map fun cnt : Nat => (cnt : Int) }) := by
  induction cnts generalizing net with
  | nil => exact ⟨[], by rw [List.map_nil, List.append_nil]; rfl⟩
  | cons cnt cnts ih =>
      obtain ⟨others, collects⟩ := ih { net with touched := net.touched ++ [(cnt : Int)] }
      refine ⟨if 0 < net.sfdConnect cnt then (cnt : Int) :: others else others, ?_⟩
      unfold selectable
      rw [run_bind_state, connected_run, run_bind_state, collects, List.map_cons,
        List.append_assoc]
      rfl

/-- The loop over the clients has come to its end, or the daemon is to end. -/
def Loop (sockfd : Int) (net : Net F) (served : MySock × Net F) : Prop :=
  ∃ mid, Serves net mid ∧
    (served = (.OKAY, mid) ∨ served = (.END, ((closeMySocket sockfd).run mid).2))

theorem Loop.after {sockfd : Int} {cnt : Nat} {net mid : Net F} {served : MySock × Net F}
    (second : Loop sockfd mid served) (bound : cnt < MAXSFD) (first : Replies cnt net mid) :
    Loop sockfd net served := by
  obtain ⟨reached, serves, ends⟩ := second
  exact ⟨reached, (Serves.single bound first).trans serves, ends⟩

/-- What is left of a client's line when the daemon is not to end is up to the rest. -/
theorem served_loop {sockfd : Int} {cnt : Nat} (bound : cnt < MAXSFD) {net : Net F}
    {served : MySock × Net F} (reads : Served cnt net served) (member : 0 < net.sfdConnect cnt)
    {rest : Server F MySock} (later : ∀ net, Loop sockfd net (rest.run net)) :
    Loop sockfd net ((match served.1 with
      | .QUIT => do
          closeFd cnt
          rest
      | .END => do
          closeMySocket sockfd
          return .END
      | _ => rest : Server F MySock).run served.2) := by
  obtain ⟨ret, next⟩ := served
  have stays (leaves : ret ≠ .QUIT) : Replies cnt net next := by
    obtain ⟨mid, replies, same | ⟨quits, -⟩⟩ := reads
    · rw [show next = mid from same]
      exact replies
    · exact absurd quits leaves
  cases ret with
  | OKAY => exact (later next).after bound (stays MySock.noConfusion)
  | QUIT => exact (later _).after bound (reads.closeFd member)
  | END =>
      refine ⟨next, .single bound (stays MySock.noConfusion), .inr ?_⟩
      rw [run_bind_state]
      rfl
  | failed => exact (later next).after bound (stays MySock.noConfusion)

private theorem serve_loop (sockfd : Int) (rfds : Int → Bool) (cnts : List Nat)
    (bound : ∀ cnt ∈ cnts, cnt < MAXSFD) (net : Net F) :
    Loop sockfd net ((serve sys sockfd rfds cnts).run net) := by
  induction cnts generalizing net with
  | nil => exact ⟨net, .refl, .inl rfl⟩
  | cons cnt cnts ih =>
      have inside := bound cnt List.mem_cons_self
      have later := ih fun other member => bound other (List.mem_cons_of_mem _ member)
      unfold serve
      rw [run_bind_state, connected_run]
      refine Loop.after ?_ inside (.connected cnt net)
      by_cases member : net.sfdConnect cnt > 0
      · rw [if_neg (not_not.mpr member)]
        by_cases ready : rfds cnt = true
        · -- the client has sent something, and the loop goes on unless it ends the daemon
          obtain ⟨transcript, -, -, logs⟩ := logabba_run L_NOTICE "FD_ISSET on fd=%i"
            [.int cnt] { net with touched := net.touched ++ [(cnt : Int)] }
          have reads := @readSocket_served F sys cnt
            { net with touched := net.touched ++ [(cnt : Int)], transcript }
          rw [if_pos ready, run_bind_state, logs, run_bind_state]
          exact (served_loop inside reads member later).after inside (.of_same rfl rfl rfl rfl)
        · rw [if_neg ready]
          exact later _
      · rw [if_pos member]
        exact later _

/-! ### A client that knocks -/

/-- The welcome and the prompt of a client that is taken in, which are the next calls of
`send`: a welcome that is not sent or a prompt of which nothing is sent loses the client. -/
def Greeted (sys : Answers) (sent : Nat) : Prop :=
  0 < sys.send sent ∧ sys.send (sent + 2) ≠ 0

theorem welcome_run (fd : Nat) (net : Net F) :
    let cnt := sys.send net.transcript.sent.length
    ∃ transcript, transcript.sent.length = net.transcript.sent.length + 2 ∧
      (welcome sys fd).run net =
        if 0 < cnt then ((fd : Int), { net with transcript })
        else (-1, { (net.replied fd cnt).closed fd with transcript }) := by
  intro cnt
  obtain ⟨first, sent, -, logs⟩ := logabba_run L_MIN "Accepted connection" [] net
  have valid : (fd : Int) ≠ -1 := by omega
  obtain ⟨written, count, -, writes⟩ := @writeFd_run F sys fd valid
    "Welcome to bat3 (%s-%s) on fd %d" [.str sys.version, .str sys.rev, .int fd]
    { net with transcript := first }
  rw [if_neg (by decide), sent] at count
  rw [sent, replied_transcript] at writes
  unfold welcome
  rw [if_neg (by omega), run_bind_state, logs, run_bind_state, writes]
  by_cases welcomed : 0 < cnt
  · obtain ⟨last, same, -, logsLast⟩ := logabba_run L_NOTICE "Wrote info message to fd %d"
      [.int fd] { net with transcript := written }
    refine ⟨last, by rw [same, count], ?_⟩
    have kept : net.replied fd cnt = net := if_neg (by omega)
    rw [if_pos welcomed, if_pos (lt_max_of_lt_left welcomed), run_bind_state, kept, logsLast]
    rfl
  · obtain ⟨last, same, -, logsLast⟩ := logabba_run L_NOTICE
      "Failed writing info message to fd %d" [] { net.replied fd cnt with transcript := written }
    refine ⟨last, by rw [same, count], ?_⟩
    have unsent : ¬ max cnt (-1) > 0 := by omega
    rw [if_neg welcomed, if_neg unsent, run_bind_state, logsLast]
    rfl

theorem promptFirst_run (fd : Nat) (net : Net F) :
    let cnt := sys.send net.transcript.sent.length
    ∃ transcript, transcript.sent.length = net.transcript.sent.length + 1 ∧
      (promptFirst sys fd).run net =
        if cnt = 0 then (-1, { net.closed fd with transcript })
        else ((fd : Int), { net.replied fd cnt with transcript }) := by
  intro cnt
  have valid : (fd : Int) ≠ -1 := by omega
  obtain ⟨written, count, -, writes⟩ := @writeFd_run F sys fd valid PROMPT [] net
  rw [if_pos rfl] at count
  refine ⟨written, count, ?_⟩
  unfold promptFirst writePrompt
  rw [if_pos valid, run_bind_state, writes]
  by_cases empty : cnt = 0
  · have kept : net.replied fd cnt = net := if_neg (by omega)
    rw [if_pos empty, if_pos (by omega), kept]
    rfl
  · rw [if_neg empty, if_neg (by omega)]
    rfl

/-- The server once a descriptor has been opened. -/
def Net.entered (net : Net F) (fd : Int) : Net F :=
  { net with opened := Function.update net.opened fd true }

private theorem entered_transcript (net : Net F) (fd : Int) (transcript : Transcript) :
    Net.entered { net with transcript } fd = { net.entered fd with transcript } := rfl

/-- The server once a descriptor has been entered in the table. -/
def Net.marked (net : Net F) (fd : Int) : Net F :=
  { net with
    touched := net.touched ++ [fd]
    sfdConnect := Function.update net.sfdConnect fd 1 }

theorem acceptConnection_run {fd : Nat} (accepted : sys.accept = some fd) (net : Net F) :
    (acceptConnection sys).run net = ((fd : Int), net.entered fd) := by
  unfold acceptConnection
  rw [accepted]
  rfl

theorem acceptSocket_refused (refused : sys.accept = none) (net : Net F) :
    (acceptSocket sys).run net = (-1, net) := by
  have accepts : (acceptConnection sys).run net = (-1, net) := by
    unfold acceptConnection
    rw [refused]
    rfl
  unfold acceptSocket
  rw [run_bind_state, accepts]
  rfl

theorem acceptSocket_greeted {fd : Nat} (accepted : sys.accept = some fd) {net : Net F}
    (greeted : Greeted sys net.transcript.sent.length) :
    let cnt := sys.send (net.transcript.sent.length + 2)
    ∃ transcript, transcript.sent.length = net.transcript.sent.length + 3 ∧
      (acceptSocket sys).run net =
        ((fd : Int), { (net.entered fd).replied fd cnt with transcript }) := by
  intro cnt
  obtain ⟨first, sent, welcomes⟩ := @welcome_run F sys fd (net.entered fd)
  obtain ⟨last, sentLast, prompts⟩ :=
    @promptFirst_run F sys fd { net.entered fd with transcript := first }
  have count : first.sent.length = net.transcript.sent.length + 2 := sent
  rw [if_pos (show 0 < sys.send (net.entered fd).transcript.sent.length from greeted.1)]
    at welcomes
  rw [count] at sentLast
  rw [count, if_neg greeted.2, replied_transcript] at prompts
  refine ⟨last, sentLast, ?_⟩
  unfold acceptSocket
  rw [run_bind_state, acceptConnection_run accepted, run_bind_state, welcomes]
  exact prompts

theorem acceptSocket_lost {fd : Nat} (accepted : sys.accept = some fd) {net : Net F}
    (lost : ¬ Greeted sys net.transcript.sent.length) :
    ∃ cnt transcript, (acceptSocket sys).run net =
      (-1, { ((net.entered fd).replied fd cnt).closed fd with transcript }) := by
  obtain ⟨first, sent, welcomes⟩ := @welcome_run F sys fd (net.entered fd)
  have count : first.sent.length = net.transcript.sent.length + 2 := sent
  unfold acceptSocket
  rw [run_bind_state, acceptConnection_run accepted, run_bind_state, welcomes]
  by_cases welcomed : 0 < sys.send (net.entered fd).transcript.sent.length
  · obtain ⟨last, -, prompts⟩ :=
      @promptFirst_run F sys fd { net.entered fd with transcript := first }
    have empty : sys.send (net.transcript.sent.length + 2) = 0 :=
      not_not.mp fun full => lost ⟨welcomed, full⟩
    rw [count, if_pos empty] at prompts
    rw [if_pos welcomed]
    exact ⟨0, last, prompts⟩
  · rw [if_neg welcomed]
    exact ⟨_, first, rfl⟩

private theorem place_marks {tempfd : Int} (small : tempfd < MAXSFD) (net : Net F) :
    ∃ transcript, (place sys tempfd).run net = ((), { net.marked tempfd with transcript }) := by
  obtain ⟨transcript, -, -, logs⟩ :=
    logabba_run L_NOTICE "Accepted knocking person on sockfd %d" [.int tempfd] net
  refine ⟨transcript, ?_⟩
  unfold place
  rw [run_bind_state, logs, if_neg (not_le.mpr small)]
  rfl

private theorem place_crowded {fd : Nat} (large : MAXSFD ≤ fd) (net : Net F) :
    let cnt := sys.send net.transcript.sent.length
    ∃ transcript, (place sys fd).run net =
      ((), { (net.replied fd cnt).closed fd with transcript }) := by
  intro cnt
  obtain ⟨first, same, -, logs⟩ :=
    logabba_run L_NOTICE "Accepted knocking person on sockfd %d" [.int fd] net
  obtain ⟨second, again, -, logsAgain⟩ :=
    logabba_run L_MIN "To much connected clients" [] { net with transcript := first }
  have valid : (fd : Int) ≠ -1 := by omega
  obtain ⟨last, -, -, writes⟩ := @writeFd_run F sys fd valid "To much connected clients" []
    { net with transcript := second }
  rw [again, same, replied_transcript] at writes
  refine ⟨last, ?_⟩
  unfold place
  rw [run_bind_state, logs, if_pos (Int.ofNat_le.mpr large), run_bind_state, logsAgain,
    run_bind_state, writes]
  rfl

theorem takeIn_run (net : Net F) :
    ∃ transcript, transcript.sent = net.transcript.sent ∧
      let accepts := (acceptSocket sys).run { net with transcript }
      (takeIn sys).run net = (place sys accepts.1).run accepts.2 := by
  obtain ⟨transcript, same, -, logs⟩ := logabba_run L_MIN "Someone knocks" [] net
  refine ⟨transcript, same, ?_⟩
  unfold takeIn
  rw [run_bind_state, logs]
  rfl

/-- When there is no client to take in, an entry is marked that the table does not have. -/
theorem takeIn_refused (refused : sys.accept = none) (net : Net F) :
    ∃ transcript, (takeIn sys).run net = ((), { net.marked (-1) with transcript }) := by
  obtain ⟨first, -, takes⟩ := @takeIn_run F sys net
  obtain ⟨last, marks⟩ := @place_marks F sys (-1) (by decide) { net with transcript := first }
  refine ⟨last, ?_⟩
  rw [takes, acceptSocket_refused refused, marks]
  rfl

/-- So it is when the client is lost. -/
theorem takeIn_lost {fd : Nat} (accepted : sys.accept = some fd) {net : Net F}
    (lost : ¬ Greeted sys net.transcript.sent.length) :
    ∃ cnt transcript, (takeIn sys).run net =
      ((), { (((net.entered fd).replied fd cnt).closed fd).marked (-1) with transcript }) := by
  obtain ⟨first, same, takes⟩ := @takeIn_run F sys net
  rw [← same] at lost
  obtain ⟨cnt, second, accepts⟩ :=
    @acceptSocket_lost F sys fd accepted { net with transcript := first } lost
  obtain ⟨last, marks⟩ := @place_marks F sys (-1) (by decide)
    { ((net.entered fd).replied fd cnt).closed fd with transcript := second }
  refine ⟨cnt, last, ?_⟩
  rw [takes, accepts, entered_transcript, replied_transcript]
  exact marks

theorem takeIn_greeted {fd : Nat} (accepted : sys.accept = some fd) (small : fd < MAXSFD)
    {net : Net F} (greeted : Greeted sys net.transcript.sent.length) :
    let cnt := sys.send (net.transcript.sent.length + 2)
    ∃ transcript, (takeIn sys).run net =
      ((), { ((net.entered fd).replied fd cnt).marked fd with transcript }) := by
  intro cnt
  obtain ⟨first, same, takes⟩ := @takeIn_run F sys net
  rw [← same] at greeted
  obtain ⟨second, -, accepts⟩ :=
    @acceptSocket_greeted F sys fd accepted { net with transcript := first } greeted
  obtain ⟨last, marks⟩ := @place_marks F sys fd (Int.ofNat_lt.mpr small)
    { (net.entered fd).replied fd cnt with transcript := second }
  refine ⟨last, ?_⟩
  rw [takes, accepts, entered_transcript, replied_transcript, same]
  exact marks

/-- A client for whom the table has no entry is turned away, which is a reply as well. -/
theorem takeIn_crowded {fd : Nat} (accepted : sys.accept = some fd) (large : MAXSFD ≤ fd)
    {net : Net F} (greeted : Greeted sys net.transcript.sent.length) :
    let sent := net.transcript.sent.length
    ∃ transcript, (takeIn sys).run net =
      ((), { (((net.entered fd).replied fd (sys.send (sent + 2))).replied fd
        (sys.send (sent + 3))).closed fd with transcript }) := by
  intro sent
  obtain ⟨first, same, takes⟩ := @takeIn_run F sys net
  rw [← same] at greeted
  obtain ⟨second, count, accepts⟩ :=
    @acceptSocket_greeted F sys fd accepted { net with transcript := first } greeted
  obtain ⟨last, leaves⟩ := @place_crowded F sys fd large
    { (net.entered fd).replied fd (sys.send (sent + 2)) with transcript := second }
  have turnedAway := replied_transcript ((net.entered fd).replied fd (sys.send (sent + 2))) fd
    (sys.send (sent + 3)) second
  rw [count, same, turnedAway] at leaves
  refine ⟨last, ?_⟩
  rw [takes, accepts, entered_transcript, replied_transcript, same]
  exact leaves

/-! ### A call -/

/-- The server once all entries of the table have been looked at. -/
def Net.listed (net : Net F) : Net F :=
  { net with touched := net.touched ++ (List.range MAXSFD).map fun cnt : Nat => (cnt : Int) }

theorem attend_failed (failed : sys.select = none) (sockfd : Int) (net : Net F) :
    (attend sys sockfd).run net = (.failed, net.listed) := by
  obtain ⟨clients, collects⟩ := selectable_run (List.range MAXSFD) net
  unfold attend
  rw [run_bind_state, collects, failed]
  rfl

theorem attend_loop {ready : Int → Bool} (selected : sys.select = some ready) (sockfd : Int)
    (net : Net F) :
    Loop sockfd ((answerKnock sys (ready sockfd)).run net.listed).2
      ((attend sys sockfd).run net) := by
  obtain ⟨clients, collects⟩ := selectable_run (List.range MAXSFD) net
  have knocks : (ready sockfd && (sockfd == sockfd || clients.contains sockfd)) =
      ready sockfd := by
    rw [beq_self_eq_true, Bool.true_or, Bool.and_true]
  unfold attend
  rw [run_bind_state, collects, selected, run_bind_state, ← knocks]
  exact serve_loop _ _ _ (fun cnt member => List.mem_range.mp member) _

/-- The listening socket that an attempt to open the port gives. -/
def port (sys : Answers) : Int :=
  if sys.bind && sys.listen then sys.socket.elim (-1) fun fd => fd else -1

/-- The server after a call of `socket`. -/
def Net.socketed (net : Net F) (sys : Answers) : Net F :=
  { net with
    opened := sys.socket.elim net.opened fun fd => Function.update net.opened fd true }

theorem openSocket_run (net : Net F) :
    (openSocket sys).run net = (sys.socket.elim (-1 : Int) fun fd => fd, net.socketed sys) := by
  unfold openSocket Net.socketed
  cases sys.socket with
  | none => rfl
  | some fd => rfl

theorem openMySocket_run (portno : Int) (net : Net F) :
    ∃ transcript, transcript.sent = net.transcript.sent ∧
      (openMySocket sys portno).run net = (port sys, { net.socketed sys with transcript }) := by
  unfold openMySocket port
  rw [run_bind_state, openSocket_run]
  cases bound : sys.bind with
  | false =>
      obtain ⟨transcript, same, -, logs⟩ := logabba_run L_MIN
        "Could not bind to port %d: %s" [.int portno, .str sys.strerror] (net.socketed sys)
      refine ⟨transcript, same, ?_⟩
      rw [if_pos (by decide), run_bind_state, logs]
      rfl
  | true =>
      rw [if_neg (by decide)]
      cases listens : sys.listen with
      | false =>
          obtain ⟨transcript, same, -, logs⟩ := logabba_run L_MIN
            "Could not listen to port %d: %s" [.int portno, .str sys.strerror] (net.socketed sys)
          refine ⟨transcript, same, ?_⟩
          rw [if_pos (by decide), run_bind_state, logs]
          rfl
      | true => exact ⟨net.transcript, rfl, rfl⟩

/-- The port is not open, and the last attempt to open it is some time ago. -/
def Tries (sys : Answers) (net : Net F) : Prop :=
  net.sockfd = -1 ∧ ¬ sys.time - net.lasttry < 30

instance (net : Net F) : Decidable (Tries sys net) :=
  inferInstanceAs (Decidable (_ ∧ _))

/-- The server once it has looked at the port. -/
def Net.tried (net : Net F) (sys : Answers) : Net F :=
  if Tries sys net then { net.socketed sys with lasttry := sys.tried, sockfd := port sys }
  else net

/-- What `processMySocket` does first, when the port is tried. -/
theorem processMySocket_tries {net : Net F} (tries : Tries sys net) :
    ∃ transcript, transcript.sent = net.transcript.sent ∧
      (processMySocket sys).run net =
        ((if port sys = -1 then do
            logabba L_MIN "Could not open port %i\n" [.int net.portno]
            return .OKAY
          else attend sys (port sys) : Server F MySock).run
            { net.tried sys with transcript }) := by
  obtain ⟨transcript, same, opens⟩ :=
    @openMySocket_run F sys net.portno { net with lasttry := sys.tried }
  refine ⟨transcript, same, ?_⟩
  have reads : (get : Server F (Net F)).run net = (net, net) := rfl
  have notes : (modify fun net => { net with lasttry := sys.tried } : Server F PUnit).run net =
      (⟨⟩, { net with lasttry := sys.tried }) := rfl
  unfold processMySocket Net.tried
  rw [run_bind_state, reads, if_pos tries.1, if_neg tries.2, if_pos tries, run_bind_state, notes,
    run_bind_state, opens]
  rfl

theorem processMySocket_closed {net : Net F} (closed : (net.tried sys).sockfd = -1) :
    ∃ ret transcript, ret ≠ .END ∧
      (processMySocket sys).run net = (ret, { net.tried sys with transcript }) := by
  by_cases tries : Tries sys net
  · obtain ⟨first, -, processes⟩ := processMySocket_tries tries
    obtain ⟨transcript, -, -, logs⟩ := logabba_run L_MIN "Could not open port %i\n"
      [.int net.portno] { net.tried sys with transcript := first }
    have unopened : port sys = -1 := by
      rw [← closed, Net.tried, if_pos tries]
    refine ⟨.OKAY, transcript, MySock.noConfusion, ?_⟩
    rw [processes, if_pos unopened, run_bind_state, logs]
    rfl
  · have same : net.tried sys = net := if_neg tries
    rw [same] at closed ⊢
    have soon : sys.time - net.lasttry < 30 := by
      by_contra late
      exact tries ⟨closed, late⟩
    refine ⟨.failed, net.transcript, MySock.noConfusion, ?_⟩
    unfold processMySocket
    rw [run_bind_state]
    exact congrFun (congrArg StateT.run ((if_pos closed).trans (if_pos soon))) net

theorem processMySocket_open {net : Net F} (opened : (net.tried sys).sockfd ≠ -1) :
    ∃ transcript, transcript.sent = net.transcript.sent ∧
      (processMySocket sys).run net =
        (attend sys (net.tried sys).sockfd).run { net.tried sys with transcript } := by
  by_cases tries : Tries sys net
  · obtain ⟨transcript, same, processes⟩ := processMySocket_tries tries
    have listens : (net.tried sys).sockfd = port sys := by
      rw [Net.tried, if_pos tries]
    rw [listens] at opened ⊢
    refine ⟨transcript, same, ?_⟩
    rw [processes, if_neg opened]
  · have same : net.tried sys = net := if_neg tries
    rw [same] at opened ⊢
    refine ⟨net.transcript, rfl, ?_⟩
    unfold processMySocket
    rw [run_bind_state]
    exact congrFun (congrArg StateT.run (if_neg opened)) net

/-- What is recorded of a call starts anew. -/
def Net.anew (net : Net F) : Net F := { net with touched := [], transcript := ⟨[], [], [], []⟩ }

theorem tried_anew (net : Net F) (sys : Answers) : net.anew.tried sys = (net.tried sys).anew := by
  by_cases tries : Tries sys net
  · have triesAnew : Tries sys net.anew := tries
    rw [Net.tried, Net.tried, if_pos tries, if_pos triesAnew]
    rfl
  · have waitsAnew : ¬ Tries sys net.anew := tries
    rw [Net.tried, Net.tried, if_neg tries, if_neg waitsAnew]

theorem connections_idle {net : Net F} (idle : ¬ net.daemon.swContinue = true) :
    connections.step net sys = (net.anew, none) := if_neg idle

theorem connections_call {net : Net F} (runs : net.daemon.swContinue = true) :
    connections.step net sys =
      ({ ((processMySocket sys).run net.anew).2 with
          daemon.swContinue := ((processMySocket sys).run net.anew).1 != .END },
        some ((processMySocket sys).run net.anew).1) := if_pos runs

/-- A client knocks at the port during a call. -/
def Knocks (net : Net F) (sys : Answers) : Prop :=
  net.daemon.swContinue = true ∧ (net.tried sys).sockfd ≠ -1 ∧
    ∃ ready, sys.select = some ready ∧ ready (net.tried sys).sockfd = true

theorem knocks_anew (net : Net F) (sys : Answers) : Knocks net.anew sys ↔ Knocks net sys := by
  unfold Knocks
  rw [tried_anew]
  exact Iff.rfl

end Calls

/-- A call that opens the port on descriptor 3 when nobody is there. -/
def firstCall : Answers where
  time := 30
  tried := 30
  now := 30
  socket := some 3
  bind := true
  listen := true
  select := some fun _ => false
  accept := none
  send _ := 1
  read _ := none
  cmd _ := []
  strerror := []
  ctime _ := []
  printBat3 _ := []
  version := []
  rev := []

end TsBat3

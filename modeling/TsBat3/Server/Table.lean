import TsBat3.Server.Indexes

/-! # The table and the descriptors

Between calls the open descriptors should be the listening socket and those marked in the
table (`TsBat3.AllKnown`). Two things go wrong: `openMySocket` ends with `shutdown` where
it should close a socket that cannot be bound, so that every attempt costs a descriptor; and
a client that is not greeted leaves a mark at entry -1. `TsBat3.allKnown_iff` says that
nothing else does.
-/

namespace TsBat3

section Table

variable {F : Type} {sys : Answers}

/-- The descriptors that are open are those that the server knows of. -/
def AllKnown (net : Net F) : Prop :=
  ∀ fd, net.opened fd = true ↔ net.sockfd ≠ -1 ∧ fd = net.sockfd ∨ net.sfdConnect fd = 1

/-- What holds between calls. -/
structure Orderly (net : Net F) : Prop where
  known : AllKnown net
  values : ∀ fd, net.sfdConnect fd = 0 ∨ net.sfdConnect fd = 1
  entries : ∀ fd, net.sfdConnect fd = 1 → InTable fd
  listener : net.sockfd ≠ -1 → net.sfdConnect net.sockfd = 0

theorem Orderly.congr {net next : Net F} (orderly : Orderly net)
    (sockfd : next.sockfd = net.sockfd) (table : next.sfdConnect = net.sfdConnect)
    (opened : next.opened = net.opened) : Orderly next where
  known := by
    unfold AllKnown
    rw [sockfd, table, opened]
    exact orderly.known
  values := by
    rw [table]
    exact orderly.values
  entries := by
    rw [table]
    exact orderly.entries
  listener := by
    rw [sockfd, table]
    exact orderly.listener

theorem Orderly.unmarked {net : Net F} (orderly : Orderly net) {fd : Int}
    (fresh : net.opened fd = false) : net.sfdConnect fd = 0 := by
  apply (orderly.values fd).resolve_right
  intro marked
  rw [(orderly.known fd).mpr (.inr marked)] at fresh
  exact Bool.noConfusion fresh

/-- An entry and its descriptor change together, away from the listening socket. -/
theorem Orderly.entry {fd : Int} {net next : Net F} (orderly : Orderly net) (joins : Bool)
    (inside : joins = true → InTable fd) (elsewhere : net.sockfd ≠ -1 → net.sockfd ≠ fd)
    (sockfd : next.sockfd = net.sockfd)
    (table : next.sfdConnect = Function.update net.sfdConnect fd (cond joins 1 0))
    (opened : next.opened = Function.update net.opened fd joins) : Orderly next := by
  constructor
  · intro other
    rw [sockfd, table, opened]
    by_cases same : other = fd
    · subst same
      have notListening : ¬ (net.sockfd ≠ -1 ∧ other = net.sockfd) :=
        fun listens => elsewhere listens.1 listens.2.symm
      rw [Function.update_self, Function.update_self, or_iff_right notListening]
      cases joins with
      | false => decide
      | true => decide
    · rw [Function.update_of_ne same, Function.update_of_ne same]
      exact orderly.known other
  · intro other
    rw [table]
    by_cases same : other = fd
    · rw [same, Function.update_self]
      cases joins with
      | false => exact .inl rfl
      | true => exact .inr rfl
    · rw [Function.update_of_ne same]
      exact orderly.values other
  · intro other marked
    rw [table] at marked
    by_cases same : other = fd
    · rw [same, Function.update_self] at marked
      cases joins with
      | false => exact absurd marked (by decide)
      | true => exact same ▸ inside rfl
    · rw [Function.update_of_ne same] at marked
      exact orderly.entries other marked
  · rw [sockfd, table]
    intro listens
    rw [Function.update_of_ne (elsewhere listens)]
    exact orderly.listener listens

theorem orderly_startNet (daemon : Daemon F) : Orderly (startNet daemon) where
  known fd := by
    refine iff_of_false Bool.noConfusion ?_
    rintro (listens | marked)
    · exact listens.1 rfl
    · exact zero_ne_one marked
  values _ := .inl rfl
  entries _ marked := absurd marked (zero_ne_one' Int)
  listener opened := absurd rfl opened

/-! ### Serving clients -/

theorem Orderly.replies {fd : Int} {net next : Net F} (orderly : Orderly net)
    (replies : Replies fd net next) : Orderly next := by
  rcases replies.table with ⟨table, opened⟩ | ⟨member, table, opened⟩
  · exact orderly.congr replies.sockfd table opened
  · refine orderly.entry false Bool.noConfusion ?_ replies.sockfd table opened
    intro listens same
    rw [← same, orderly.listener listens] at member
    exact lt_irrefl 0 member

theorem Orderly.serves {net next : Net F} (orderly : Orderly net) (serves : Serves net next) :
    Orderly next := by
  induction serves with
  | refl => exact orderly
  | tail _ last ih =>
      obtain ⟨cnt, -, replies⟩ := last
      exact ih.replies replies

/-- Entry -1 is marked, and no descriptor is behind it. -/
def Stray (net : Net F) : Prop := net.sfdConnect (-1) = 1 ∧ net.opened (-1) = false

theorem Stray.not_allKnown {net : Net F} (stray : Stray net) : ¬ AllKnown net := by
  intro known
  have opened := (known (-1)).mpr (.inr stray.1)
  rw [stray.2] at opened
  exact Bool.noConfusion opened

theorem Stray.serves {net next : Net F} (stray : Stray net) (serves : Serves net next) :
    Stray next := by
  induction serves with
  | refl => exact stray
  | tail _ last ih =>
      obtain ⟨cnt, -, replies⟩ := last
      unfold Stray
      rcases replies.table with ⟨table, opened⟩ | ⟨-, table, opened⟩
      · rw [table, opened]
        exact ih
      · have other : (-1 : Int) ≠ cnt := by omega
        rw [table, opened, Function.update_of_ne other, Function.update_of_ne other]
        exact ih

theorem Loop.serves {sockfd : Int} {net : Net F} {served : MySock × Net F}
    (loop : Loop sockfd net served) (returns : served.1 ≠ .END) : Serves net served.2 := by
  obtain ⟨mid, serves, rfl | rfl⟩ := loop
  · exact serves
  · exact absurd rfl returns

/-! ### A client that knocks -/

/-- A reply to a client that is not in the table leaves table and descriptors alone. -/
theorem replied_unmarked {net : Net F} {fd : Int} (unmarked : net.sfdConnect fd = 0) (cnt : Int) :
    (net.replied fd cnt).sfdConnect = net.sfdConnect ∧
      (net.replied fd cnt).opened = net.opened := by
  apply (Replies.replied fd cnt net).table.resolve_right
  rintro ⟨member, -, -⟩
  rw [unmarked] at member
  exact lt_irrefl 0 member

theorem takeIn_orderly {fd : Nat} (accepted : sys.accept = some fd) (small : fd < MAXSFD)
    {net : Net F} (orderly : Orderly net) (fresh : net.opened fd = false)
    (greeted : Greeted sys net.transcript.sent.length) :
    Orderly ((takeIn sys).run net).2 := by
  obtain ⟨transcript, takes⟩ := takeIn_greeted accepted small greeted
  have unmarked : (net.entered fd).sfdConnect fd = 0 := orderly.unmarked fresh
  obtain ⟨table, opened⟩ :=
    replied_unmarked unmarked (sys.send (net.transcript.sent.length + 2))
  have sockfd := (Replies.replied fd (sys.send (net.transcript.sent.length + 2))
    (net.entered fd)).sockfd
  have elsewhere : net.sockfd ≠ -1 → net.sockfd ≠ fd := by
    intro listens same
    rw [(orderly.known fd).mpr (.inl ⟨listens, same.symm⟩)] at fresh
    exact Bool.noConfusion fresh
  rw [takes]
  exact orderly.entry true (fun _ => inTable_cnt small) elsewhere sockfd
    (congrArg (Function.update · (fd : Int) 1) table) opened

private theorem marked_self (net : Net F) (fd : Int) : (net.marked fd).sfdConnect fd = 1 :=
  Function.update_self fd 1 net.sfdConnect

theorem takeIn_stray {fd : Nat} (accepted : sys.accept = some fd) {net : Net F}
    (orderly : Orderly net) (fresh : net.opened fd = false)
    (lost : ¬ Greeted sys net.transcript.sent.length) : Stray ((takeIn sys).run net).2 := by
  obtain ⟨cnt, transcript, takes⟩ := takeIn_lost accepted lost
  have unmarked : (net.entered fd).sfdConnect fd = 0 := orderly.unmarked fresh
  obtain ⟨-, opened⟩ := replied_unmarked unmarked cnt
  have other : (-1 : Int) ≠ fd := by omega
  have unused : net.opened (-1) = false := by
    by_contra used
    rcases (orderly.known (-1)).mp (eq_true_of_ne_false used) with listens | marked
    · exact listens.1 listens.2.symm
    · exact absurd (orderly.entries (-1) marked) (by decide)
  rw [takes]
  refine ⟨marked_self (((net.entered fd).replied fd cnt).closed fd) (-1), ?_⟩
  change Function.update ((net.entered fd).replied fd cnt).opened fd false (-1) = false
  rw [opened, Function.update_of_ne other]
  exact (Function.update_of_ne other true net.opened).trans unused

/-! ### The port -/

/-- A socket is opened that cannot be bound or listened on. -/
def Leaks (net : Net F) (sys : Answers) : Prop :=
  net.daemon.swContinue = true ∧ Tries sys net ∧ sys.socket.isSome = true ∧
    (sys.bind = false ∨ sys.listen = false)

theorem Orderly.listen {net next : Net F} (orderly : Orderly net) (closed : net.sockfd = -1)
    {fd : Nat} (fresh : net.opened fd = false) (sockfd : next.sockfd = fd)
    (table : next.sfdConnect = net.sfdConnect)
    (opened : next.opened = Function.update net.opened fd true) : Orderly next := by
  have unmarked := orderly.unmarked fresh
  have valid : (fd : Int) ≠ -1 := by omega
  constructor
  · intro other
    rw [sockfd, table, opened]
    by_cases same : other = fd
    · rw [same, Function.update_self]
      exact iff_of_true rfl (.inl ⟨valid, rfl⟩)
    · have notListening : ¬ ((fd : Int) ≠ -1 ∧ other = fd) := fun listens => same listens.2
      have notBefore : ¬ (net.sockfd ≠ -1 ∧ other = net.sockfd) :=
        fun listens => listens.1 closed
      have before := orderly.known other
      rw [or_iff_right notBefore] at before
      rw [Function.update_of_ne same, or_iff_right notListening]
      exact before
  · rw [table]
    exact orderly.values
  · rw [table]
    exact orderly.entries
  · rw [sockfd, table]
    exact fun _ => unmarked

private theorem tried_orderly {net : Net F} (orderly : Orderly net)
    (runs : net.daemon.swContinue = true)
    (fresh : Tries sys net → ∀ fd, sys.socket = some fd → net.opened fd = false)
    (kept : ¬ Leaks net sys) : Orderly (net.tried sys) := by
  unfold Net.tried
  by_cases tries : Tries sys net
  · rw [if_pos tries]
    cases made : sys.socket with
    | none =>
        have unopened : port sys = -1 := by
          unfold port
          rw [made]
          split
          · rfl
          · rfl
        refine orderly.congr (unopened.trans tries.1.symm) rfl ?_
        change sys.socket.elim net.opened _ = net.opened
        rw [made]
        rfl
    | some fd =>
        have ready : sys.bind = true ∧ sys.listen = true := by
          by_contra fails
          rw [not_and_or, Bool.not_eq_true, Bool.not_eq_true] at fails
          exact kept ⟨runs, tries, by rw [made]; rfl, fails⟩
        have listens : port sys = fd := by
          unfold port
          rw [ready.1, ready.2, made]
          rfl
        refine orderly.listen tries.1 (fresh tries fd made) listens rfl ?_
        change sys.socket.elim net.opened _ = _
        rw [made]
        rfl
  · rw [if_neg tries]
    exact orderly

/-- A socket that is only shut down stays open, and nobody knows of it. -/
theorem tried_leaks {net : Net F} (orderly : Orderly net)
    (fresh : Tries sys net → ∀ fd, sys.socket = some fd → net.opened fd = false)
    (leaks : Leaks net sys) :
    (net.tried sys).sockfd = -1 ∧ ¬ AllKnown (net.tried sys) := by
  obtain ⟨-, tries, some, fails⟩ := leaks
  obtain ⟨fd, made⟩ := Option.isSome_iff_exists.mp some
  have unopened : port sys = -1 := by
    unfold port
    rcases fails with unbound | unheard
    · rw [unbound]
      rfl
    · rw [unheard, Bool.and_false]
      rfl
  unfold Net.tried
  rw [if_pos tries]
  refine ⟨unopened, fun known => ?_⟩
  have opened : sys.socket.elim net.opened (fun fd => Function.update net.opened fd true) fd =
      true := by
    rw [made]
    exact Function.update_self _ _ _
  rcases (known fd).mp opened with listens | marked
  · exact listens.1 unopened
  · have unmarked := orderly.unmarked (fresh tries fd made)
    exact absurd (unmarked.symm.trans marked) (zero_ne_one' Int)

/-! ### Every call -/

/-- The system hands out descriptors that are not in use, and a client that knocks is
accepted with one that the table has an entry for. -/
def HandsOut (net : Net F) (sys : Answers) : Prop :=
  (net.daemon.swContinue = true → Tries sys net →
    ∀ fd, sys.socket = some fd → net.opened fd = false) ∧
  (Knocks net sys →
    ∃ fd, sys.accept = some fd ∧ fd < MAXSFD ∧ (net.tried sys).opened fd = false)

/-- No socket is lost with a port that cannot be opened, and every client that knocks is
greeted. -/
def Settles (net : Net F) (sys : Answers) : Prop :=
  ¬ Leaks net sys ∧ (Knocks net sys → Greeted sys 0)

private theorem orderly_listed {net : Net F} (orderly : Orderly net) : Orderly net.listed :=
  orderly.congr rfl rfl rfl

theorem attend_orderly {net : Net F} (orderly : Orderly net)
    (unsent : net.transcript.sent.length = 0) (sockfd : Int)
    (knocks : (∃ ready, sys.select = some ready ∧ ready sockfd = true) → Greeted sys 0 ∧
      ∃ fd, sys.accept = some fd ∧ fd < MAXSFD ∧ net.opened fd = false)
    (returns : ((attend sys sockfd).run net).1 ≠ .END) :
    Orderly ((attend sys sockfd).run net).2 := by
  cases selected : sys.select with
  | none =>
      rw [attend_failed selected]
      exact orderly_listed orderly
  | some ready =>
      refine Orderly.serves ?_ ((attend_loop selected sockfd net).serves returns)
      unfold answerKnock
      by_cases knock : ready sockfd = true
      · obtain ⟨greeted, fd, accepted, small, fresh⟩ := knocks ⟨ready, selected, knock⟩
        rw [← unsent] at greeted
        rw [if_pos knock]
        exact takeIn_orderly accepted small (orderly_listed orderly) fresh greeted
      · rw [if_neg knock]
        exact orderly_listed orderly

theorem attend_stray {net : Net F} (orderly : Orderly net)
    (unsent : net.transcript.sent.length = 0) {sockfd : Int} {ready : Int → Bool}
    (selected : sys.select = some ready) (knock : ready sockfd = true) {fd : Nat}
    (accepted : sys.accept = some fd) (fresh : net.opened fd = false)
    (lost : ¬ Greeted sys 0) (returns : ((attend sys sockfd).run net).1 ≠ .END) :
    Stray ((attend sys sockfd).run net).2 := by
  refine Stray.serves ?_ ((attend_loop selected sockfd net).serves returns)
  rw [← unsent] at lost
  unfold answerKnock
  rw [if_pos knock]
  exact takeIn_stray accepted (orderly_listed orderly) fresh lost

theorem processMySocket_orderly {net : Net F} (orderly : Orderly net)
    (runs : net.daemon.swContinue = true) (unsent : net.transcript.sent.length = 0)
    (hands : HandsOut net sys) (returns : ((processMySocket sys).run net).1 ≠ .END)
    (settles : Settles net sys) : Orderly ((processMySocket sys).run net).2 := by
  have tried := tried_orderly orderly runs (hands.1 runs) settles.1
  by_cases opened : (net.tried sys).sockfd = -1
  · obtain ⟨ret, transcript, -, processes⟩ := processMySocket_closed opened
    rw [processes]
    exact tried.congr rfl rfl rfl
  · obtain ⟨transcript, same, processes⟩ := processMySocket_open opened
    have knocks (knock : ∃ ready, sys.select = some ready ∧
        ready (net.tried sys).sockfd = true) : Knocks net sys := ⟨runs, opened, knock⟩
    have started : Orderly { net.tried sys with transcript } := tried.congr rfl rfl rfl
    have unsentStill : transcript.sent.length = 0 := by rw [same, unsent]
    rw [processes] at returns ⊢
    refine attend_orderly started unsentStill _ ?_ returns
    exact fun knock => ⟨settles.2 (knocks knock), hands.2 (knocks knock)⟩

theorem processMySocket_unknown {net : Net F} (orderly : Orderly net)
    (runs : net.daemon.swContinue = true) (unsent : net.transcript.sent.length = 0)
    (hands : HandsOut net sys) (returns : ((processMySocket sys).run net).1 ≠ .END)
    (unsettled : ¬ Settles net sys) : ¬ AllKnown ((processMySocket sys).run net).2 := by
  by_cases leaks : Leaks net sys
  · obtain ⟨opened, unknown⟩ := tried_leaks orderly (hands.1 runs) leaks
    obtain ⟨ret, transcript, -, processes⟩ := processMySocket_closed opened
    rw [processes]
    exact unknown
  · have lost : ¬ (Knocks net sys → Greeted sys 0) := fun greets => unsettled ⟨leaks, greets⟩
    obtain ⟨knocks, ungreeted⟩ := Classical.not_imp.mp lost
    obtain ⟨-, opened, ready, selected, knock⟩ := knocks
    obtain ⟨fd, accepted, -, fresh⟩ := hands.2 ⟨runs, opened, ready, selected, knock⟩
    obtain ⟨transcript, same, processes⟩ := processMySocket_open opened
    have tried := tried_orderly orderly runs (hands.1 runs) leaks
    have started : Orderly { net.tried sys with transcript } := tried.congr rfl rfl rfl
    have unsentStill : transcript.sent.length = 0 := by rw [same, unsent]
    rw [processes] at returns ⊢
    apply Stray.not_allKnown
    exact attend_stray started unsentStill selected knock accepted fresh ungreeted returns

/-- A call has returned something other than `MYSOCK_END`. -/
def Returns (taken : Machine.Step (Net F) Answers (Option MySock)) : Prop :=
  ∃ ret, taken.output = some ret ∧ ret ≠ .END

private theorem anew_hands {net : Net F} (hands : HandsOut net sys) : HandsOut net.anew sys := by
  unfold HandsOut
  rw [knocks_anew, tried_anew]
  exact hands

private theorem settles_anew (net : Net F) (sys : Answers) :
    Settles net.anew sys ↔ Settles net sys := by
  unfold Settles
  rw [knocks_anew]
  exact Iff.rfl

/-- What a call that returns shows about the state that it was made in. -/
theorem returns_call {net : Net F} (returned : Returns (connections.stepAt net sys)) :
    net.daemon.swContinue = true ∧ ((processMySocket sys).run net.anew).1 ≠ .END := by
  obtain ⟨ret, output, stays⟩ := returned
  have made : (connections.step net sys).2 = some ret := output
  by_cases runs : net.daemon.swContinue = true
  · rw [connections_call runs] at made
    exact ⟨runs, Option.some.inj made ▸ stays⟩
  · rw [connections_idle runs] at made
    nomatch made

theorem allKnown_step {net : Net F} (orderly : net.daemon.swContinue = true → Orderly net)
    (hands : HandsOut net sys) (returned : Returns (connections.stepAt net sys)) :
    (Settles net sys → Orderly (connections.step net sys).1) ∧
      (¬ Settles net sys → ¬ AllKnown (connections.step net sys).1) := by
  obtain ⟨runs, returns⟩ := returns_call returned
  have start : Orderly net.anew := (orderly runs).congr rfl rfl rfl
  rw [← settles_anew, connections_call runs]
  constructor
  · intro settles
    exact (processMySocket_orderly start runs rfl (anew_hands hands) returns settles).congr
      rfl rfl rfl
  · exact processMySocket_unknown start runs rfl (anew_hands hands) returns

/-- A daemon that goes on has made a call that returned. -/
theorem returned_of_continues {net : Net F}
    (continues : (connections.step net sys).1.daemon.swContinue = true) :
    Returns (connections.stepAt net sys) := by
  by_cases runs : net.daemon.swContinue = true
  · rw [connections_call runs] at continues
    refine ⟨_, congrArg Prod.snd (connections_call runs), ?_⟩
    exact bne_iff_ne.mp continues
  · rw [connections_idle runs] at continues
    exact absurd continues runs

/-- **The table accounts for all descriptors** after every call that does not end the
daemon if and only if all these calls settle what they open. -/
theorem allKnown_iff (daemon : Daemon F) (calls : List Answers)
    (hands : ∀ taken ∈ connections.trace (startNet daemon) calls,
      HandsOut taken.before taken.event) :
    (∀ taken ∈ connections.trace (startNet daemon) calls,
        Returns taken → AllKnown taken.after) ↔
      ∀ taken ∈ connections.trace (startNet daemon) calls,
        Returns taken → Settles taken.before taken.event := by
  refine connections.trace_iff (fun net => net.daemon.swContinue = true → Orderly net)
    (fun taken => HandsOut taken.before taken.event) _ _ ?_ ?_ _ calls
    (fun _ => orderly_startNet daemon) hands
  · intro net sys orderly hands
    apply imp_congr_right
    intro returned
    obtain ⟨settled, unsettled⟩ := allKnown_step orderly hands returned
    exact ⟨fun known => not_not.mp fun lost => unsettled lost known,
      fun settles => (settled settles).known⟩
  · intro net sys orderly hands settles continues
    have returned := returned_of_continues continues
    exact (allKnown_step orderly hands returned).1 (settles returned)

end Table

/-- A client that comes in on descriptor 4 while the port is open on 3. -/
def knockingCall : Answers :=
  { firstCall with select := some fun fd => fd == 3, accept := some 4 }

private theorem handsOut_knocking :
    ∀ taken ∈ connections.trace (startNet (startDaemon (0 : ℚ) [] .blank))
        [firstCall, knockingCall],
      HandsOut taken.before taken.event := by
  intro taken member
  rcases List.mem_cons.mp member with rfl | later
  · refine ⟨fun _ _ _ _ => rfl, fun knocks => ?_⟩
    obtain ⟨-, -, ready, selected, knock⟩ := knocks
    rw [← Option.some.inj selected] at knock
    exact Bool.noConfusion knock
  · rw [List.mem_singleton.mp later]
    refine ⟨fun _ tries => absurd tries.1 (by decide +kernel), fun _ => ⟨4, rfl, by decide, ?_⟩⟩
    decide +kernel

private theorem settles_knocking (net : Net ℚ) {sys : Answers}
    (member : sys ∈ [firstCall, knockingCall]) :
    Settles net sys := by
  have works : sys.bind = true ∧ sys.listen = true ∧ sys.send = fun _ => 1 := by
    rcases List.mem_cons.mp member with first | second
    · rw [first]
      exact ⟨rfl, rfl, rfl⟩
    · rw [List.mem_singleton.mp second]
      exact ⟨rfl, rfl, rfl⟩
  obtain ⟨bound, heard, sends⟩ := works
  refine ⟨fun leaks => ?_, fun _ => ?_⟩
  · rcases leaks.2.2.2 with unbound | unheard
    · exact absurd (bound.symm.trans unbound) (by decide)
    · exact absurd (heard.symm.trans unheard) (by decide)
  · unfold Greeted
    rw [sends]
    decide

/-- Once a client has come in, the server knows of the port and of the client. -/
theorem allKnown_knocking :
    AllKnown (connections.stepAt (connections.run (startNet (startDaemon (0 : ℚ) [] .blank))
      [firstCall]) knockingCall).after := by
  have known := (allKnown_iff (startDaemon (0 : ℚ) [] .blank) [firstCall, knockingCall]
    handsOut_knocking).mpr fun taken member _ =>
      settles_knocking taken.before (connections.event_mem member)
  exact known _ ((connections.mem_trace _ _ _).mpr ⟨[firstCall], knockingCall, [], rfl, rfl⟩)
    ⟨.OKAY, by decide +kernel, by decide⟩

/-- A port that cannot be bound costs a descriptor. -/
theorem unbound_leaks :
    ¬ ∀ calls : List Answers,
      (∀ taken ∈ connections.trace (startNet (startDaemon (0 : ℚ) [] .blank)) calls,
        HandsOut taken.before taken.event) →
      ∀ taken ∈ connections.trace (startNet (startDaemon (0 : ℚ) [] .blank)) calls,
        Returns taken → AllKnown taken.after := by
  intro claimed
  have hands : ∀ taken ∈ connections.trace (startNet (startDaemon (0 : ℚ) [] .blank))
      [{ firstCall with bind := false }], HandsOut taken.before taken.event := by
    intro taken member
    rw [List.mem_singleton.mp member]
    exact ⟨fun _ _ _ _ => rfl, fun knocks => absurd (by decide +kernel) knocks.2.1⟩
  have known := claimed _ hands _ List.mem_cons_self ⟨.OKAY, by decide +kernel, by decide⟩ 3
  exact absurd known (by decide +kernel)

end TsBat3

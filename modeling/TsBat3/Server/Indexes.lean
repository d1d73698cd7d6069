import TsBat3.Server.Calls

/-! # The indexes of the table

The table has entries 0..127, and the clients that are served are taken from there. A
client that knocks is another matter: the descriptor that `acceptSocket` returns is -1 when
there is no client to take in, and `processMySocket` marks that entry as well; and a
descriptor past the end of the table is only recognised after the prompt, whose failure has
already been looked up in the table. `TsBat3.indexes_iff` says when all indexes are those of
entries.
-/

namespace TsBat3

section Indexes

variable {F : Type} {sys : Answers}

/-- The index of an entry of the table. -/
def InTable (index : Int) : Prop := 0 ≤ index ∧ index < MAXSFD

instance (index : Int) : Decidable (InTable index) := inferInstanceAs (Decidable (_ ∧ _))

/-- The table has been accessed at its entries only. -/
def InBounds (net : Net F) : Prop := ∀ index ∈ net.touched, InTable index

theorem inTable_cnt {cnt : Nat} (bound : cnt < MAXSFD) : InTable cnt :=
  ⟨Int.natCast_nonneg cnt, Int.ofNat_lt.mpr bound⟩

private theorem inBounds_append {net next : Net F} {more : List Int}
    (touched : next.touched = net.touched ++ more) :
    InBounds next ↔ InBounds net ∧ ∀ index ∈ more, InTable index := by
  unfold InBounds
  rw [touched]
  simp only [List.mem_append, or_imp, forall_and]

private theorem inBounds_touch {net next : Net F} {fd : Int}
    (touched : next.touched = net.touched ++ [fd]) :
    InBounds next ↔ InBounds net ∧ InTable fd := by
  rw [inBounds_append touched]
  simp only [List.mem_singleton, forall_eq]

theorem Touches.inBounds {fd : Int} (entry : InTable fd) {net next : Net F}
    (touches : Touches fd net next) : InBounds next ↔ InBounds net := by
  obtain ⟨more, touched, atFd⟩ := touches
  rw [inBounds_append touched]
  exact and_iff_left fun index inside => atFd index inside ▸ entry

/-- Dropping a client looks at its entry in any case. -/
theorem inBounds_dropped (net : Net F) (fd : Int) :
    InBounds (net.dropped fd) ↔ InBounds net ∧ InTable fd := by
  by_cases entry : InTable fd
  · rw [(Replies.dropped fd net).touched.inBounds entry]
    exact (and_iff_left entry).symm
  · refine iff_of_false (fun inside => entry (inside fd ?_)) (fun both => entry both.2)
    unfold Net.dropped
    split
    · exact List.mem_append_right _ List.mem_cons_self
    · exact List.mem_append_right _ List.mem_cons_self

private theorem inBounds_replied (net : Net F) (fd cnt : Int) :
    InBounds (net.replied fd cnt) ↔ InBounds net ∧ (cnt < 0 → InTable fd) := by
  unfold Net.replied
  by_cases failed : cnt < 0
  · rw [if_pos failed, inBounds_dropped]
    simp only [failed, true_imp_iff]
  · rw [if_neg failed]
    simp only [failed, false_imp_iff, and_true]

/-! ### The clients of the table -/

theorem Serves.inBounds {net next : Net F} (serves : Serves net next) :
    InBounds next ↔ InBounds net := by
  induction serves with
  | refl => exact Iff.rfl
  | tail _ last ih =>
      obtain ⟨cnt, bound, replies⟩ := last
      rw [replies.touched.inBounds (inTable_cnt bound), ih]

private theorem inBounds_closeAll (fds : List Nat) (bound : ∀ fd ∈ fds, fd < MAXSFD) (net : Net F) :
    InBounds ((closeAll fds).run net).2 ↔ InBounds net := by
  induction fds generalizing net with
  | nil => exact Iff.rfl
  | cons fd fds ih =>
      have later := ih (fun other member => bound other (List.mem_cons_of_mem _ member))
        (net.dropped fd)
      unfold closeAll
      rw [run_bind_state, closeFd_run, later, inBounds_dropped]
      exact and_iff_left (inTable_cnt (bound fd List.mem_cons_self))

private theorem inBounds_closed (net : Net F) (fd : Int) :
    InBounds (net.closed fd) ↔ InBounds net :=
  Iff.rfl

theorem inBounds_closeMySocket (sockfd : Int) (net : Net F) :
    InBounds ((closeMySocket sockfd).run net).2 ↔ InBounds net := by
  have closes := inBounds_closeAll (List.range MAXSFD) (fun _ member => List.mem_range.mp member)
    net
  unfold closeMySocket
  rw [run_bind_state, close_run, inBounds_closed]
  exact closes

theorem Loop.inBounds {sockfd : Int} {net : Net F} {served : MySock × Net F}
    (loop : Loop sockfd net served) : InBounds served.2 ↔ InBounds net := by
  obtain ⟨mid, serves, rfl | rfl⟩ := loop
  · exact serves.inBounds
  · rw [inBounds_closeMySocket, serves.inBounds]

private theorem inBounds_listed (net : Net F) : InBounds net.listed ↔ InBounds net := by
  have touched : net.listed.touched =
      net.touched ++ (List.range MAXSFD).map fun cnt : Nat => (cnt : Int) := rfl
  rw [inBounds_append touched]
  apply and_iff_left
  intro index inside
  obtain ⟨cnt, member, rfl⟩ := List.mem_map.mp inside
  exact inTable_cnt (List.mem_range.mp member)

/-! ### A client that knocks -/

/-- A connection is accepted and greeted; past the end of the table, no reply to it fails. -/
def TakesIn (sys : Answers) : Prop :=
  ∃ fd, sys.accept = some fd ∧ Greeted sys 0 ∧
    (MAXSFD ≤ fd → 0 ≤ sys.send 2 ∧ 0 ≤ sys.send 3)

private theorem not_inBounds_marked (net : Net F) : ¬ InBounds (net.marked (-1)) :=
  fun inside => absurd (inside (-1) (List.mem_append_right _ List.mem_cons_self)) (by decide)

private theorem takesIn_iff {fd : Nat} (accepted : sys.accept = some fd) :
    TakesIn sys ↔ Greeted sys 0 ∧ (MAXSFD ≤ fd → 0 ≤ sys.send 2 ∧ 0 ≤ sys.send 3) := by
  constructor
  · rintro ⟨other, same, greeted⟩
    rw [accepted, Option.some.injEq] at same
    exact same ▸ greeted
  · exact fun greeted => ⟨fd, accepted, greeted⟩

private theorem takeIn_inBounds_small {fd : Nat} (accepted : sys.accept = some fd)
    (small : fd < MAXSFD) {net : Net F} (greeted : Greeted sys net.transcript.sent.length) :
    InBounds ((takeIn sys).run net).2 ↔ InBounds net := by
  obtain ⟨transcript, takes⟩ := takeIn_greeted accepted small greeted
  have replies := Replies.replied fd (sys.send (net.transcript.sent.length + 2)) (net.entered fd)
  rw [takes]
  calc
    InBounds (((net.entered fd).replied fd _).marked fd) ↔
        InBounds ((net.entered fd).replied fd _) :=
      (inBounds_touch rfl).trans (and_iff_left (inTable_cnt small))
    _ ↔ InBounds (net.entered fd) := replies.touched.inBounds (inTable_cnt small)

private theorem takeIn_inBounds_large {fd : Nat} (accepted : sys.accept = some fd)
    (large : MAXSFD ≤ fd) {net : Net F} (greeted : Greeted sys net.transcript.sent.length) :
    InBounds ((takeIn sys).run net).2 ↔ InBounds net ∧
      0 ≤ sys.send (net.transcript.sent.length + 2) ∧
      0 ≤ sys.send (net.transcript.sent.length + 3) := by
  obtain ⟨transcript, takes⟩ := takeIn_crowded accepted large greeted
  have outside : ¬ InTable fd := fun entry => absurd entry.2 (by omega)
  have leaves : InBounds ((takeIn sys).run net).2 ↔ InBounds (((net.entered fd).replied fd
      (sys.send (net.transcript.sent.length + 2))).replied fd
      (sys.send (net.transcript.sent.length + 3))) := by
    rw [takes]
    exact Iff.rfl
  rw [leaves, inBounds_replied, inBounds_replied]
  simp only [outside, imp_false, not_lt, and_assoc]
  exact Iff.rfl

theorem takeIn_inBounds {net : Net F} (unsent : net.transcript.sent.length = 0) :
    InBounds ((takeIn sys).run net).2 ↔ InBounds net ∧ TakesIn sys := by
  cases accepted : sys.accept with
  | none =>
      obtain ⟨transcript, takes⟩ := takeIn_refused accepted net
      rw [takes]
      refine iff_of_false (not_inBounds_marked net) ?_
      rintro ⟨-, fd, other, -⟩
      rw [accepted] at other
      nomatch other
  | some fd =>
      rw [takesIn_iff accepted]
      by_cases greeted : Greeted sys 0
      · have greetedNow := greeted
        rw [← unsent] at greetedNow
        rcases lt_or_ge fd MAXSFD with small | large
        · rw [takeIn_inBounds_small accepted small greetedNow]
          exact (and_iff_left ⟨greeted, fun large => absurd small (not_lt.mpr large)⟩).symm
        · rw [takeIn_inBounds_large accepted large greetedNow, unsent]
          simp only [greeted, large, true_imp_iff, true_and]
      · have lost := greeted
        rw [← unsent] at lost
        obtain ⟨cnt, transcript, takes⟩ := takeIn_lost accepted lost
        rw [takes]
        exact iff_of_false (not_inBounds_marked _) fun both => greeted both.2.1

/-! ### Every call -/

theorem attend_inBounds {net : Net F} (unsent : net.transcript.sent.length = 0) (sockfd : Int) :
    InBounds ((attend sys sockfd).run net).2 ↔
      InBounds net ∧ ((∃ ready, sys.select = some ready ∧ ready sockfd = true) → TakesIn sys) := by
  cases selected : sys.select with
  | none =>
      rw [attend_failed selected, inBounds_listed]
      apply (and_iff_left _).symm
      rintro ⟨ready, other, -⟩
      nomatch other
  | some ready =>
      have knocks : (∃ other, some ready = some other ∧ other sockfd = true) ↔
          ready sockfd = true := by
        simp only [Option.some.injEq, exists_eq_left']
      rw [(attend_loop selected sockfd net).inBounds, knocks]
      unfold answerKnock
      by_cases knock : ready sockfd = true
      · have unsentListed : net.listed.transcript.sent.length = 0 := unsent
        rw [if_pos knock, takeIn_inBounds unsentListed, inBounds_listed]
        simp only [knock, true_imp_iff]
      · rw [if_neg knock]
        exact (inBounds_listed net).trans (and_iff_left fun yes => absurd yes knock).symm

theorem processMySocket_inBounds {net : Net F} (runs : net.daemon.swContinue = true)
    (untouched : net.touched = []) (unsent : net.transcript.sent.length = 0) :
    InBounds ((processMySocket sys).run net).2 ↔ (Knocks net sys → TakesIn sys) := by
  have nothing : InBounds (net.tried sys) := by
    unfold Net.tried
    split
    · exact fun index inside => absurd (untouched ▸ inside) List.not_mem_nil
    · exact fun index inside => absurd (untouched ▸ inside) List.not_mem_nil
  by_cases opened : (net.tried sys).sockfd = -1
  · obtain ⟨ret, transcript, -, processes⟩ := processMySocket_closed opened
    rw [processes]
    exact iff_of_true nothing fun knocks => absurd opened knocks.2.1
  · obtain ⟨transcript, same, processes⟩ := processMySocket_open opened
    have unsentNow : transcript.sent.length = 0 := by rw [same, unsent]
    rw [processes, attend_inBounds unsentNow]
    unfold Knocks
    simp only [runs, opened, ne_eq, not_false_eq_true, true_and]
    exact and_iff_right nothing

theorem connections_inBounds (net : Net F) (sys : Answers) :
    InBounds (connections.step net sys).1 ↔ (Knocks net sys → TakesIn sys) := by
  by_cases runs : net.daemon.swContinue = true
  · have process := @processMySocket_inBounds F sys net.anew runs rfl rfl
    rw [knocks_anew] at process
    rw [connections_call runs, ← process]
    exact Iff.rfl
  · rw [connections_idle runs]
    exact iff_of_true (fun index inside => absurd inside List.not_mem_nil)
      fun knocks => absurd knocks.1 runs

/-- **Indexes of the table.** All indexes of a run are those of entries if and only if
every client that knocks is taken in. -/
theorem indexes_iff (net : Net F) (calls : List Answers) :
    (∀ taken ∈ connections.trace net calls, ∀ index ∈ taken.after.touched, InTable index) ↔
      ∀ taken ∈ connections.trace net calls,
        Knocks taken.before taken.event → TakesIn taken.event := by
  apply forall₂_congr
  exact connections.forall_mem_trace connections_inBounds net calls

end Indexes

/-- When `accept` fails, entry -1 is written. -/
theorem refused_out_of_bounds :
    ¬ ∀ calls : List Answers,
      ∀ taken ∈ connections.trace (startNet (startDaemon (0 : ℚ) [] .blank)) calls,
        ∀ index ∈ taken.after.touched, InTable index := by
  intro inside
  have refused := inside [{ firstCall with select := some fun fd => fd == 3 }] _
    List.mem_cons_self (-1) (by decide +kernel)
  exact absurd refused (by decide)

end TsBat3

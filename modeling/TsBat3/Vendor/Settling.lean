import TsBat3.Vendor.Search

/-! # The end of the search

Ten turns of a search that no command begins anew end it, whatever the currents. When more low
time means less current, it ends at the place at which the current falls to the target.
-/

namespace TsBat3

variable (shutdelay : Int)

/-- The search goes on in a window of some width, the middle of which has been asked for. -/
structure Searching (count : Nat) (loop : ChargeLoop) : Prop where
  within : loop.state.Within loop.req.pwmLo
  begun : loop.state.lockHi.toNat ≤ 500
  locked : loop.state.locked = false
  going : ¬ loop.state.window.Settled
  wide : loop.state.window.width ≤ 2 ^ count
  middle : (loop.req.pwmLo.toNat : Int) = loop.state.window.mid

/-! ### Turns of a search -/

section Turns

variable {loop : ChargeLoop} {event : ChargeEvent} {count : Nat}

/-- A reply narrows a window that has been asked for. -/
theorem tighten_window {state : BAT3chargeState} {req : BAT3request} {rep : BAT3reply}
    (begun : state.lockHi ≤ state.lockMax) :
    (tighten state req rep).window =
      state.window.narrow req.pwmLo.toNat (decide (battI rep.adc7 > state.targetI)) := by
  unfold tighten
  rw [if_neg (BitVec.not_lt.mpr begun)]
  by_cases above : battI rep.adc7 > state.targetI
  · rw [if_pos above, decide_eq_true above]
    rfl
  · rw [if_neg above, decide_eq_false above]
    rfl

/-- The first reply to a new search only sets its window. -/
theorem tighten_fresh {state : BAT3chargeState} {req : BAT3request} {rep : BAT3reply}
    (fresh : state.Fresh) (period : state.lockMax = 500) :
    (tighten state req rep).window = ⟨0, 500⟩ := by
  obtain ⟨-, top, bottom⟩ := fresh
  unfold tighten
  rw [if_pos (by rw [top, period]; decide), period]
  unfold BAT3chargeState.window
  rw [bottom]
  rfl

/-- The window that a turn leaves a search, what the turn asks for, and when it ends the
search. -/
theorem turn_seeks (unlocked : (listen loop.state event).1.locked = false) :
    ∃ left, left = (tighten (listen loop.state event).1 (enablePwm (listen loop.state event).1
        (BAT3requestInitFromReply event.rep loop.req)) event.rep).window ∧
      ((BAT3BatteryCharge shutdelay).step loop event).1.state.window = left ∧
      (((BAT3BatteryCharge shutdelay).step loop event).1.req.pwmLo.toNat : Int) = left.mid ∧
      (((BAT3BatteryCharge shutdelay).step loop event).1.state.locked = true ↔ left.Settled) := by
  refine ⟨_, rfl, ?_⟩
  obtain ⟨locked, pwmLo, sought, ended, middle⟩ := seek_spec (listen loop.state event).1
    (enablePwm (listen loop.state event).1 (BAT3requestInitFromReply event.rep loop.req)) event.rep
  rw [charge_state, charge_req]
  unfold updatePwm
  rw [unlocked, if_neg Bool.false_ne_true, sought]
  rw [unlocked] at ended
  exact ⟨rfl, middle, ended.trans (or_iff_right Bool.false_ne_true)⟩

/-- Any turn ends the search, or leaves it a window within the period. -/
theorem first_turn (within : loop.state.Within loop.req.pwmLo)
    (echo : Echoes ((BAT3BatteryCharge shutdelay).stepAt loop event)) :
    ((BAT3BatteryCharge shutdelay).step loop event).1.state.locked = true ∨
      Searching 9 ((BAT3BatteryCharge shutdelay).step loop event).1 := by
  obtain ⟨still, begun, -⟩ := within_turn shutdelay within echo
  by_cases ended : ((BAT3BatteryCharge shutdelay).step loop event).1.state.locked = true
  · exact Or.inl ended
  refine Or.inr ?_
  have unlocked : (listen loop.state event).1.locked = false := by
    rw [← Bool.not_eq_true]
    intro locked
    obtain ⟨targetI, pwmLo, followed, -⟩ := regulate_spec (listen loop.state event).1
      (enablePwm (listen loop.state event).1 (BAT3requestInitFromReply event.rep loop.req))
      event.rep
    apply ended
    rw [charge_state]
    unfold updatePwm
    rw [if_pos locked, followed]
    exact locked
  obtain ⟨left, -, window, middle, settled⟩ := turn_seeks shutdelay unlocked
  rw [← window] at middle settled
  refine ⟨still, begun, Bool.eq_false_iff.mpr ended, mt settled.mpr ended, ?_, middle⟩
  unfold SearchWindow.width BAT3chargeState.window
  dsimp only
  omega

theorem Searching.pos (searching : Searching count loop) : 0 < count := by
  apply Nat.pos_of_ne_zero
  rintro rfl
  have wide := searching.wide
  rw [pow_zero] at wide
  exact searching.going (lt_of_le_of_lt wide one_lt_two)

/-- The reply to a search that goes on is about the middle of its window. -/
theorem Searching.echoed (searching : Searching count loop)
    (echo : Echoes ((BAT3BatteryCharge shutdelay).stepAt loop event)) :
    (event.rep.pwmLo.toNat : Int) = loop.state.window.mid := by
  have asked : event.rep.pwmLo = loop.req.pwmLo := echo.resolve_left fun fresh => by
    have top : loop.state.lockHi = 501 := fresh.2.1
    have begun := searching.begun
    rw [top] at begun
    exact absurd begun (by decide)
  rw [asked]
  exact searching.middle

/-- **A turn of a search** halves the window, and ends the search when that is narrow. -/
theorem Searching.turn (searching : Searching (count + 1) loop)
    (near : Near loop.state event.command)
    (echo : Echoes ((BAT3BatteryCharge shutdelay).stepAt loop event)) :
    ((BAT3BatteryCharge shutdelay).step loop event).1.state.window =
        loop.state.window.narrow loop.state.window.mid
          (decide (battI event.rep.adc7 > (listen loop.state event).1.targetI)) ∧
      (((BAT3BatteryCharge shutdelay).step loop event).1.req.pwmLo.toNat : Int) =
        ((BAT3BatteryCharge shutdelay).step loop event).1.state.window.mid ∧
      ((((BAT3BatteryCharge shutdelay).step loop event).1.state.locked = true ∧
          ((BAT3BatteryCharge shutdelay).step loop event).1.state.window.Settled) ∨
        Searching count ((BAT3BatteryCharge shutdelay).step loop event).1) := by
  have echoed := searching.echoed shutdelay echo
  obtain ⟨within, begun, locked, going, wide, -⟩ := searching
  obtain ⟨still, after, -⟩ := within_turn shutdelay within echo
  have kept : Kept loop.state (listen loop.state event).1 :=
    (listen_cases loop.state event).resolve_right fun renewed => renewed.1 near
  have started : (listen loop.state event).1.lockHi ≤ (listen loop.state event).1.lockMax := by
    rw [kept.lockHi, kept.lockMax, within.1]
    exact begun
  obtain ⟨left, narrowed, window, place, settled⟩ :=
    turn_seeks shutdelay (kept.unlocked locked)
  have asked : (enablePwm (listen loop.state event).1
      (BAT3requestInitFromReply event.rep loop.req)).pwmLo = event.rep.pwmLo := rfl
  rw [tighten_window started, kept.window, asked, echoed] at narrowed
  rw [window]
  refine ⟨narrowed, place, ?_⟩
  by_cases ended : left.Settled
  · exact Or.inl ⟨settled.mpr ended, ended⟩
  · refine Or.inr ⟨still, after, Bool.eq_false_iff.mpr (mt settled.mp ended), ?_, ?_, ?_⟩
    · rw [window]
      exact ended
    · rw [window, narrowed]
      exact SearchWindow.width_narrow _ wide going
    · rw [window]
      exact place

end Turns

/-! ### Runs of a search -/

/-- What a turn that ends a search leaves: a window that is narrow, the middle of which is asked
for, and what the replies have told of it. -/
structure Ends (known : SearchWindow → Prop) (taken : ChargeStep) : Prop where
  begun : taken.before.state.locked = false
  locked : taken.after.state.locked = true
  settled : taken.after.state.window.Settled
  middle : (taken.after.req.pwmLo.toNat : Int) = taken.after.state.window.mid
  known : known taken.after.state.window

/-- **The end of a search.** A search that goes on in a window ends in as many turns as the window
can be halved, and what every reply keeps is known of the window at its end. -/
theorem Searching.ends (known : SearchWindow → Prop) {count : Nat} {loop : ChargeLoop}
    {events : List ChargeEvent} (searching : Searching count loop) (enough : count ≤ events.length)
    (near : ∀ taken ∈ (BAT3BatteryCharge shutdelay).trace loop events,
      Near taken.before.state taken.event.command)
    (echoes : ∀ taken ∈ (BAT3BatteryCharge shutdelay).trace loop events, Echoes taken)
    (start : known loop.state.window)
    (narrows : ∀ taken ∈ (BAT3BatteryCharge shutdelay).trace loop events,
      (taken.event.rep.pwmLo.toNat : Int) = taken.before.state.window.mid →
      ¬ taken.before.state.window.Settled → known taken.before.state.window →
      known (taken.before.state.window.narrow taken.before.state.window.mid
        (decide (battI taken.event.rep.adc7 >
          (listen taken.before.state taken.event).1.targetI)))) :
    ∃ taken ∈ (BAT3BatteryCharge shutdelay).trace loop events, Ends known taken := by
  induction events generalizing count loop with
  | nil => exact absurd searching.pos (not_lt.mpr enough)
  | cons event events ih =>
      rw [Machine.trace_cons, List.forall_mem_cons] at near echoes narrows
      obtain ⟨count, rfl⟩ := Nat.exists_eq_add_one.mpr searching.pos
      have now : Near loop.state event.command := near.1
      obtain ⟨window, middle, next⟩ := searching.turn shutdelay now echoes.1
      have tells := narrows.1 (searching.echoed shutdelay echoes.1) searching.going start
      have left : known ((BAT3BatteryCharge shutdelay).step loop event).1.state.window := by
        rw [window]
        exact tells
      rcases next with ⟨locked, settled⟩ | going
      · exact ⟨_, List.mem_cons_self, searching.locked, locked, settled, middle, left⟩
      · obtain ⟨taken, member, ended⟩ := ih going (Nat.le_of_succ_le_succ enough) near.2 echoes.2
          left narrows.2
        exact ⟨taken, List.mem_cons_of_mem _ member, ended⟩

/-- The turns of a run keep to their period, whatever they meet. -/
theorem within_run {samples : Nat → ℚ} {req : BAT3request} {targetI on off : Int}
    {events : List ChargeEvent}
    (echoes : ∀ taken ∈ (BAT3BatteryCharge shutdelay).trace
      (startCharge samples req targetI on off) events, Echoes taken) :
    ((BAT3BatteryCharge shutdelay).run (startCharge samples req targetI on off) events).state.Within
      ((BAT3BatteryCharge shutdelay).run
        (startCharge samples req targetI on off) events).req.pwmLo :=
  Machine.outputs_invariant (BAT3BatteryCharge shutdelay)
    (fun _ loop => loop.state.Within loop.req.pwmLo) Echoes
    (fun _ _ _ within echo => (within_turn shutdelay within echo).1)
    _ events (within_start samples req targetI on off) echoes

variable (samples : Nat → ℚ) (req : BAT3request) (targetI on off : Int)
  (earlier : List ChargeEvent) (first : ChargeEvent) (later : List ChargeEvent)

/-- **The search ends** in ten turns from any state that a run reaches, whatever the currents, if
no command after the first of these turns begins it anew. -/
theorem search_settles (enough : 9 ≤ later.length)
    (echoes : ∀ taken ∈ (BAT3BatteryCharge shutdelay).trace
      (startCharge samples req targetI on off) (earlier ++ first :: later), Echoes taken)
    (near : ∀ taken ∈ (BAT3BatteryCharge shutdelay).trace
      ((BAT3BatteryCharge shutdelay).run (startCharge samples req targetI on off)
        (earlier ++ [first])) later, Near taken.before.state taken.event.command) :
    ∃ taken ∈ (BAT3BatteryCharge shutdelay).trace
      ((BAT3BatteryCharge shutdelay).run (startCharge samples req targetI on off) earlier)
        (first :: later), taken.after.state.locked = true := by
  rw [Machine.trace_append, List.forall_mem_append, Machine.trace_cons, List.forall_mem_cons]
    at echoes
  rw [Machine.run_append] at near
  rcases first_turn shutdelay (within_run shutdelay echoes.1) echoes.2.1 with locked | searching
  · exact ⟨_, List.mem_cons_self, locked⟩
  · obtain ⟨taken, member, ended⟩ := searching.ends shutdelay (fun _ => True) enough near
      echoes.2.2 trivial fun _ _ _ _ _ => trivial
    exact ⟨taken, List.mem_cons_of_mem _ member, ended.locked⟩

theorem search_settles_sample :
    ∃ taken ∈ (BAT3BatteryCharge 300).trace
      ((BAT3BatteryCharge 300).run sampleCharge []) (sampleTurn 1000 :: sampleSearch),
      taken.after.state.locked = true :=
  search_settles 300 _ _ 12000 60 60 [] (sampleTurn 1000) sampleSearch (by decide)
    (by decide +kernel) (by decide +kernel)

/-- **What the search finds.** Where more low time means less current, a search that is begun anew
ends in ten turns and asks for the low time at which the current falls to the target, if the
target stays as it is. -/
theorem search_finds (target : Int) (current : Int → Int) (enough : 9 ≤ later.length)
    (falling : ∀ low high, low ≤ high → current high ≤ current low)
    (echoes : ∀ taken ∈ (BAT3BatteryCharge shutdelay).trace
      (startCharge samples req targetI on off) (earlier ++ first :: later), Echoes taken)
    (anew : (listen ((BAT3BatteryCharge shutdelay).run (startCharge samples req targetI on off)
      earlier).state first).1.Fresh)
    (steady : ∀ taken ∈ (BAT3BatteryCharge shutdelay).trace
      ((BAT3BatteryCharge shutdelay).run (startCharge samples req targetI on off)
        (earlier ++ [first])) later,
      Near taken.before.state taken.event.command ∧
        (listen taken.before.state taken.event).1.targetI = target ∧
        battI taken.event.rep.adc7 = current taken.event.rep.pwmLo.toNat) :
    ∃ taken ∈ (BAT3BatteryCharge shutdelay).trace
      ((BAT3BatteryCharge shutdelay).run (startCharge samples req targetI on off)
        (earlier ++ [first])) later,
      taken.before.state.locked = false ∧ taken.after.state.locked = true ∧
        ∀ place, 0 < place → place < 500 →
          (target < current place ↔ place ≤ taken.after.req.pwmLo.toNat) := by
  rw [Machine.trace_append, List.forall_mem_append, Machine.trace_cons, List.forall_mem_cons]
    at echoes
  rw [Machine.run_append] at steady ⊢
  have within := within_run shutdelay echoes.1
  obtain ⟨left, opened, window, middle, settled⟩ :=
    turn_seeks shutdelay anew.1
  have period : (listen ((BAT3BatteryCharge shutdelay).run
      (startCharge samples req targetI on off) earlier).state first).1.lockMax = 500 :=
    (within.listen echoes.2.1).1
  rw [tighten_fresh anew period] at opened
  subst opened
  have searching := (first_turn shutdelay within echoes.2.1).resolve_left fun locked =>
    absurd (settled.mp locked) (by decide)
  have whole : SearchWindow.Encloses (fun place => target < current place) 0 500 ⟨0, 500⟩ :=
    ⟨by decide, le_rfl, le_rfl, Or.inl rfl, Or.inl rfl⟩
  have narrows (taken) (member : taken ∈ (BAT3BatteryCharge shutdelay).trace
      ((BAT3BatteryCharge shutdelay).run ((BAT3BatteryCharge shutdelay).run
        (startCharge samples req targetI on off) earlier) [first]) later)
      (echoed : (taken.event.rep.pwmLo.toNat : Int) = taken.before.state.window.mid)
      (going : ¬ taken.before.state.window.Settled)
      (known : taken.before.state.window.Encloses (fun place => target < current place) 0 500) :
      (taken.before.state.window.narrow taken.before.state.window.mid
        (decide (battI taken.event.rep.adc7 >
          (listen taken.before.state taken.event).1.targetI))).Encloses
            (fun place => target < current place) 0 500 := by
    obtain ⟨-, aim, measured⟩ := steady taken member
    rw [aim, measured, echoed]
    exact known.narrow going
  obtain ⟨taken, member, ended⟩ := searching.ends shutdelay _ enough
    (fun taken member => (steady taken member).1) echoes.2.2 (window ▸ whole) narrows
  refine ⟨taken, member, ended.begun, ended.locked, fun place low high => ?_⟩
  rw [ended.middle]
  exact ended.known.found (fun low high ordered above =>
    lt_of_lt_of_le above (falling low high ordered)) ended.settled ⟨low, high⟩

/-- A search for 12 mA ends at a low time of 299 of 500. -/
theorem search_finds_sample :
    ∃ taken ∈ (BAT3BatteryCharge 300).trace
      ((BAT3BatteryCharge 300).run sampleCharge [sampleTurn 1000]) sampleSearch,
      taken.before.state.locked = false ∧ taken.after.state.locked = true ∧
        ∀ place : Int, 0 < place → place < 500 →
          (12000 < (500 - place) * 60 ↔ place ≤ taken.after.req.pwmLo.toNat) :=
  search_finds 300 _ _ 12000 60 60 [] (sampleTurn 1000) sampleSearch 12000
    (fun place => (500 - place) * 60) (by decide) (fun low high ordered => by omega)
    (by decide +kernel) (by decide +kernel) (by decide +kernel)

end TsBat3
